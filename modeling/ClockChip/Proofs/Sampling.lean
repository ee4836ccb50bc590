import ClockChip.Proofs.Frames
import ClockChip.Proofs.Lines

/-!
# Bits that are sampled

A write with the clock low brings a bit to the chip or takes one from it, and for either the
session has a cursor in a byte.  The cursors are inside their bytes whatever has been done on
a board, streams with anything in them included, so a chip that looks at every place before it
goes there finds that it may (`checkedWrite?_eq`).

What the bits make up is said for as long as no stream has been restored.  The byte that is
being received holds the last bits that have been sampled, the first of them lowest, and nothing
above them (`Holds`); the eighth completes it, and it is handed on as the last eight bits that
have been sampled (`Holds.suffix`).  It does not matter that frames end in the middle of a byte,
since the next one begins with none.
-/

namespace ClockChip

/-! ## Places that are looked at before -/

namespace Session

/-- A byte with one bit set.  There is none if the bit is not one of a byte. -/
def bitMask? (i : UInt32) : Option UInt8 := if i < 8 then some (1 <<< i.toUInt8) else none

/-- Takes a bit from the host, if there is a place for it. -/
def checkedShiftIn? (s : Session) (bit : Bool) : Option (Option UInt8 × Session) := do
  let input ← if bit then (bitMask? s.inputBit).map (s.input ||| ·) else some s.input
  return if s.inputBit + 1 < 8 then (none, { s with input, inputBit := s.inputBit + 1 })
    else (some input, { s with input := 0, inputBit := 0 })

/-- Sends a bit, if there is one at the cursors. -/
def checkedShiftOut? (s : Session) : Option (Bool × Session) := do
  let byte ← s.output[s.outputPos.toNat]?
  let mask ← bitMask? s.outputBit
  return (byte &&& mask != 0, s.advance)

variable {s : Session}

theorem bitMask?_of_lt {i : UInt32} (lt : i < 8) : bitMask? i = some (1 <<< i.toUInt8) :=
  if_pos lt

theorem Cursors.checkedShiftIn? (h : s.Cursors) (bit : Bool) :
    s.checkedShiftIn? bit = some (s.shiftIn bit) := by
  unfold Session.checkedShiftIn? Session.shiftIn Session.accept
  rw [bitMask?_of_lt h.inputBit]
  cases bit <;> rfl

theorem Cursors.checkedShiftOut? (h : s.Cursors) : s.checkedShiftOut? = s.shiftOut? := by
  unfold Session.checkedShiftOut? Session.shiftOut?
  rw [bitMask?_of_lt h.outputBit]
  cases s.output[s.outputPos.toNat]? <;> rfl

end Session

namespace Chip

variable {c : Chip}

/-- Does what a write means, unless that goes to a place which is not there. -/
def checkedServe? : Edge → Chip → Option Chip
  | .toChip bit, c =>
    (c.session.checkedShiftIn? bit).map fun
      | (none, session) => { c with session }
      | (some b, session) => { c with session }.receive b
  | .fromChip, c =>
    c.session.checkedShiftOut?.map fun (bit, session) ↦
      { c with session, bus := Wire.data.put bit c.bus }
  | edge, c => some (c.serve edge)

/-- Writes the bus register, unless that goes to a place which is not there. -/
def checkedWrite? (w : Word) (c : Chip) : Option Chip :=
  (c.checkedServe? (.of c.bus w)).map fun c ↦ c.latch w

theorem checkedServe?_eq (h : c.session.Cursors) (edge : Edge) :
    c.checkedServe? edge = some (c.serve edge) := by
  cases edge with
  | idle => rfl
  | start => rfl
  | toChip bit =>
    unfold checkedServe? serve takeBit
    dsimp only
    refine (congrArg (Option.map _) (h.checkedShiftIn? bit)).trans ?_
    rcases c.session.shiftIn bit with ⟨_ | b, session⟩ <;> rfl
  | fromChip =>
    obtain ⟨given, gives⟩ := h.shiftOut?
    unfold checkedServe? serve giveBit
    dsimp only
    refine (congrArg (Option.map _) (h.checkedShiftOut?.trans gives)).trans ?_
    rw [gives]
    rfl

/-- With its cursors inside, a chip never goes to a place which is not there. -/
theorem checkedWrite?_eq (h : c.session.Cursors) (w : Word) :
    c.checkedWrite? w = some (c.write w) := by
  rw [checkedWrite?, checkedServe?_eq h]
  rfl

end Chip

/-! ## What a write brings -/

/-- The bit that the chip samples. -/
def Edge.bit? : Edge → Option Bool
  | toChip bit => some bit
  | _ => none

namespace Chip

variable {c : Chip} {w : Word} {b : UInt8}

/-- The bit that the chip samples when a word is written. -/
def sampled? (w : Word) (c : Chip) : Option Bool := (Edge.of c.bus w).bit?

/-- The byte that a word completes. -/
def handed? (w : Word) (c : Chip) : Option UInt8 :=
  (c.sampled? w).bind fun bit ↦ (c.session.shiftIn bit).1

/-- A byte is completed by the bit that is sampled. -/
theorem shiftIn_of_handed (handed : c.handed? w = some b) :
    ∃ bit, Edge.of c.bus w = .toChip bit ∧ c.sampled? w = some bit ∧
      c.session.shiftIn bit = (some b, { c.session with input := 0, inputBit := 0 }) := by
  obtain ⟨bit, sampled, completed⟩ := Option.bind_eq_some_iff.1 handed
  have edge : Edge.of c.bus w = .toChip bit := by
    unfold sampled? at sampled
    cases of : Edge.of c.bus w with
    | toChip bit' =>
      rw [of] at sampled
      rw [Option.some.inj sampled]
    | _ =>
      rw [of] at sampled
      nomatch sampled
  have shifted : c.session.shiftIn bit = (some b, (c.session.shiftIn bit).2) :=
    Prod.ext completed rfl
  exact ⟨bit, edge, sampled, shifted.trans (by rw [session_of_shiftIn shifted])⟩

/-- A byte that is completed is received, and nothing of it is left. -/
theorem write_of_handed (handed : c.handed? w = some b) :
    c.write w =
      ({ c with session := { c.session with input := 0, inputBit := 0 } }.receive b).latch w := by
  obtain ⟨bit, edge, -, shifted⟩ := shiftIn_of_handed handed
  rw [write_of_edge edge, serve, takeBit, shifted]

end Chip

/-! ## The byte that is being received -/

namespace Session

/-- In a byte with bit `i` set no other bit is. -/
theorem getLsbD_bitMask {i : Nat} (lt : i < 8) (j : Nat) :
    ((1 : UInt8) <<< (UInt32.ofNat i).toUInt8).toBitVec.getLsbD j = decide (j = i) := by
  have all : ∀ i < 8, ∀ j < 8,
      ((1 : UInt8) <<< (UInt32.ofNat i).toUInt8).toBitVec.getLsbD j = decide (j = i) := by
    decide +kernel
  rcases Nat.lt_or_ge j 8 with inside | beyond
  · exact all i lt j inside
  · rw [BitVec.getLsbD_of_ge _ _ beyond, decide_eq_false]
    omega

/-- The bit goes to the place at which the cursor is. -/
theorem getLsbD_accept {s : Session} (inside : s.inputBit.toNat < 8) (bit : Bool) (j : Nat) :
    (s.accept bit).toBitVec.getLsbD j =
      (s.input.toBitVec.getLsbD j || bit && decide (j = s.inputBit.toNat)) := by
  have mask := getLsbD_bitMask inside j
  rw [UInt32.ofNat_toNat] at mask
  cases bit with
  | false =>
    rw [Bool.false_and, Bool.or_false]
    rfl
  | true =>
    rw [Bool.true_and, accept, if_pos rfl, UInt8.toBitVec_or, BitVec.getLsbD_or, mask]

/-- The byte that is being received holds the last of some bits, and nothing else. -/
structure Holds (bits : List Bool) (s : Session) : Prop where
  inside : s.inputBit.toNat < 8
  above : ∀ i, s.inputBit.toNat ≤ i → s.input.toBitVec.getLsbD i = false
  latest : (List.range s.inputBit.toNat).map s.input.toBitVec.getLsbD <:+ bits

variable {bits : List Bool} {s s' : Session} {bit : Bool}

/-- Where no bit has arrived yet, it holds none. -/
theorem Holds.empty (input : s.input = 0) (inputBit : s.inputBit = 0) : Holds bits s where
  inside := by rw [inputBit]; decide
  above i _ := by rw [input]; exact BitVec.getLsbD_zero
  latest := by rw [inputBit]; exact List.nil_suffix

theorem Holds.same (h : Holds bits s) (input : s'.input = s.input)
    (inputBit : s'.inputBit = s.inputBit) : Holds bits s' where
  inside := by rw [inputBit]; exact h.inside
  above := by rw [input, inputBit]; exact h.above
  latest := by rw [input, inputBit]; exact h.latest

/-- A bit goes behind those that are held already. -/
theorem Holds.accept (h : Holds bits s) (bit : Bool) :
    (List.range (s.inputBit.toNat + 1)).map (s.accept bit).toBitVec.getLsbD <:+ bits ++ [bit] := by
  obtain ⟨before, held⟩ := h.latest
  have below : (List.range s.inputBit.toNat).map (s.accept bit).toBitVec.getLsbD =
      (List.range s.inputBit.toNat).map s.input.toBitVec.getLsbD := by
    refine List.map_congr_left fun j mem ↦ ?_
    have other : ¬ j = s.inputBit.toNat := Nat.ne_of_lt (List.mem_range.1 mem)
    rw [getLsbD_accept h.inside, decide_eq_false other, Bool.and_false, Bool.or_false]
  have here : (s.accept bit).toBitVec.getLsbD s.inputBit.toNat = bit := by
    rw [getLsbD_accept h.inside, h.above _ (Nat.le_refl _), decide_eq_true rfl, Bool.and_true,
      Bool.false_or]
  refine ⟨before, ?_⟩
  rw [List.range_succ, List.map_append, below, List.map_singleton, here, ← List.append_assoc, held]

/-- There is room for another bit unless the byte is complete. -/
theorem Holds.inputBit_add_one (h : Holds bits s) :
    (s.inputBit + 1).toNat = s.inputBit.toNat + 1 := by
  have inside := h.inside
  rw [UInt32.toNat_add]
  exact Nat.mod_eq_of_lt (by simp only [UInt32.reduceToNat]; omega)

theorem Holds.shiftIn (h : Holds bits s) (shifted : s.shiftIn bit = (none, s')) :
    Holds (bits ++ [bit]) s' := by
  have latest := h.accept bit
  have next := h.inputBit_add_one
  unfold Session.shiftIn at shifted
  split at shifted
  · next more =>
    obtain rfl := (Prod.mk.inj shifted).2
    refine ⟨UInt32.lt_iff_toNat_lt.1 more, fun i le ↦ ?_, ?_⟩
    · dsimp only at le ⊢
      rw [next] at le
      rw [getLsbD_accept h.inside, h.above i (Nat.le_of_succ_le le),
        decide_eq_false (Nat.ne_of_gt le), Bool.and_false, Bool.or_false]
    · dsimp only
      rw [next]
      exact latest
  · nomatch shifted

/-- A byte that is complete is the last eight bits. -/
theorem Holds.suffix (h : Holds bits s) {b : UInt8} (shifted : s.shiftIn bit = (some b, s')) :
    Wire.bits b <:+ bits ++ [bit] := by
  have latest := h.accept bit
  have next := h.inputBit_add_one
  unfold Session.shiftIn at shifted
  split at shifted
  · nomatch shifted
  · next last =>
    obtain rfl := Option.some.inj (Prod.mk.inj shifted).1
    rw [UInt32.lt_iff_toNat_lt, next] at last
    have inside := h.inside
    have eighth : s.inputBit.toNat + 1 = 8 := by
      simp only [UInt32.reduceToNat] at last
      omega
    rw [eighth] at latest
    exact latest

end Session

namespace Chip

open Session (Holds)

variable {c : Chip} {w : Word} {bits : List Bool}

/-- Whatever is written, what is held are the last bits. -/
theorem holds_write (h : Holds bits c.session) (w : Word) :
    Holds (bits ++ (c.sampled? w).toList) (c.write w).session := by
  unfold sampled?
  cases edge : Edge.of c.bus w with
  | idle =>
    rw [write_of_edge edge]
    exact (List.append_nil bits).symm ▸ h
  | start =>
    rw [write_of_edge edge]
    exact .empty rfl rfl
  | toChip bit =>
    rw [write_of_edge edge, serve, takeBit]
    split
    · next shifted => exact h.shiftIn shifted
    · next b s shifted =>
      obtain rfl := session_of_shiftIn shifted
      obtain ⟨_, received⟩ :=
        session_receive { c with session := { c.session with input := 0, inputBit := 0 } } b
      exact .empty (congrArg Session.input received) (congrArg Session.inputBit received)
  | fromChip =>
    obtain ⟨_, _, _, _, given⟩ := (SameInput.refl c).giveBit
    rw [write_of_edge edge, serve, given]
    exact (List.append_nil bits).symm ▸ h.same rfl rfl

/-- A byte that is handed on is the last eight bits. -/
theorem suffix_of_handed (h : Holds bits c.session) {b : UInt8} (handed : c.handed? w = some b) :
    Wire.bits b <:+ bits ++ (c.sampled? w).toList := by
  obtain ⟨bit, -, sampled, shifted⟩ := shiftIn_of_handed handed
  rw [sampled]
  exact h.suffix shifted

end Chip

/-! ## On a board -/

namespace Board

open Session (Holds)

/-- The word that is written to the chip. -/
def word? (b : Board) : Step → Option Word
  | .write w => some w
  | .writeByte byte => some (b.chip.widen byte)
  | _ => none

/-- The bit that the chip samples. -/
def sampled? (b : Board) (step : Step) : Option Bool := (b.word? step).bind (b.chip.sampled? ·)

/-- The byte that is completed and handed on. -/
def handed? (b : Board) (step : Step) : Option UInt8 := (b.word? step).bind (b.chip.handed? ·)

/-- The bits that the chip samples, one after another. -/
def sampled (b : Board) (steps : List Step) : List Bool :=
  seenAlong (fun b step ↦ (b.sampled? step).toList) step b steps

/-- A stream is restored: it is one that is accepted. -/
def Step.Restores : Step → Prop
  | .load data => Chip.Snapshot.Loadable data
  | .loadMachine data => Machine.Snapshot.Loadable data
  | _ => False

variable {b : Board} {bits : List Bool}

theorem step_of_refused {step : Step} (refused : ¬step.Restores) :
    (∃ w, b.word? step = some w ∧ (b.step step).chip = b.chip.write w) ∨
      b.word? step = none ∧
        ((b.step step).chip.session = b.chip.session ∨ (b.step step).chip.session = {}) := by
  cases step with
  | reset => exact .inr ⟨rfl, .inr rfl⟩
  | write w => exact .inl ⟨w, rfl, rfl⟩
  | writeByte byte => exact .inl ⟨_, rfl, rfl⟩
  | load data =>
    refine .inr ⟨rfl, .inl ?_⟩
    unfold Board.step
    dsimp only
    split
    · next loaded => exact absurd ((Chip.loads_iff b.chip data).1 ⟨_, _, loaded⟩) refused
    · rfl
  | loadMachine data =>
    refine .inr ⟨rfl, .inl ?_⟩
    unfold Board.step
    dsimp only
    split
    · next loaded => exact absurd ((Machine.loads_iff _ data).1 ⟨_, loaded⟩) refused
    · rfl
  | scheduler op =>
    refine .inr ⟨rfl, .inl ?_⟩
    unfold Board.step
    dsimp only
    split <;> rfl
  | _ => exact .inr ⟨rfl, .inl rfl⟩

theorem holds_step (h : Holds bits b.chip.session) {step : Step} (refused : ¬step.Restores) :
    Holds (bits ++ (b.sampled? step).toList) (b.step step).chip.session := by
  rcases b.step_of_refused refused with ⟨w, word, wrote⟩ | ⟨silent, same | new⟩
  · rw [sampled?, word, wrote]
    exact Chip.holds_write h w
  · rw [sampled?, silent, same]
    exact (List.append_nil bits).symm ▸ h
  · rw [new]
    exact .empty rfl rfl

/-- As long as no stream is restored, what is held are the last bits. -/
theorem holds_play (h : Holds [] b.chip.session) {steps : List Step}
    (refused : ∀ step ∈ steps, ¬step.Restores) :
    Holds (b.sampled steps) (b.play steps).chip.session := by
  refine seenAlong_induction (motive := fun bits (b : Board) ↦ Holds bits b.chip.session) h ?_
  exact fun bits b step mem held ↦ holds_step held (refused step mem)

theorem suffix_of_handed (h : Holds bits b.chip.session) {step : Step} {byte : UInt8}
    (handed : b.handed? step = some byte) :
    Wire.bits byte <:+ bits ++ (b.sampled? step).toList := by
  obtain ⟨w, word, handed⟩ := Option.bind_eq_some_iff.1 handed
  rw [sampled?, word]
  exact Chip.suffix_of_handed h handed

/-- Whatever has been done on a board since the chip got power, the cursors of its session are
inside their bytes, and no write goes to a place which is not there.  As long as no stream has
been restored, nothing stands above the bits that have arrived, and a byte that is handed on
consists of the last eight bits that the chip has sampled, the first of them lowest. -/
theorem session_exact (console : Console) (steps : List Step) :
    let b := (ofConsole console).play steps
    let s := b.chip.session
    (s.inputBit.toNat ≤ 7 ∧ s.outputBit.toNat ≤ 7 ∧ s.outputPos.toNat ≤ 7) ∧
      (∀ w, b.chip.checkedWrite? w = some (b.chip.write w)) ∧
      ((∀ step ∈ steps, ¬step.Restores) →
        (∀ i, s.inputBit.toNat ≤ i → s.input.toBitVec.getLsbD i = false) ∧
          ∀ step byte, b.handed? step = some byte →
            Wire.bits byte <:+ (ofConsole console).sampled (steps ++ [step])) := by
  intro b s
  have cursors : s.Cursors := cursors_play .none steps
  have inputBit := UInt32.lt_iff_toNat_lt.1 cursors.inputBit
  have outputBit := UInt32.lt_iff_toNat_lt.1 cursors.outputBit
  have outputPos := UInt32.le_iff_toNat_le.1 cursors.outputPos
  refine ⟨⟨Nat.le_of_lt_succ inputBit, Nat.le_of_lt_succ outputBit, outputPos⟩,
    Chip.checkedWrite?_eq cursors, fun refused ↦ ?_⟩
  have empty : Holds [] (ofConsole console).chip.session := .empty rfl rfl
  have holds := holds_play empty refused
  refine ⟨holds.above, fun step byte handed ↦ ?_⟩
  have last : (ofConsole console).sampled (steps ++ [step]) =
      (ofConsole console).sampled steps ++ (b.sampled? step).toList := by
    rw [sampled, seenAlong_append, seenAlong_singleton]
    rfl
  rw [last]
  exact suffix_of_handed holds handed

/-- Three bits and the end of a frame in the middle of a byte, and then all of a byte but its
last bit, with two bits that the host asks for on the way. -/
def brokenOff : List Step :=
  .reset :: (Wire.start ++ [true, false, true].flatMap Wire.sendBit ++ Wire.start ++
    (Wire.sendByte 0xA6).take 6 ++ Wire.receive 2 ++
    ((Wire.sendByte 0xA6).drop 6).take 8).map .write

/-- Eleven bits have been sampled then, and the last eight are the byte. -/
theorem session_exact_brokenOff :
    let b := (ofConsole .ds).play brokenOff
    let last : Step := .write 0x0015
    b.handed? last = some 0xA6 ∧ b.chip.session.inputBit = 7 ∧
      Wire.bits 0xA6 <:+ (ofConsole .ds).sampled (brokenOff ++ [last]) ∧
      (ofConsole .ds).sampled (brokenOff ++ [last]) =
        [true, false, true, false, true, true, false, false, true, false, true] := by
  intro b last
  have handed : b.handed? last = some 0xA6 := by decide +kernel
  have refused : ∀ step ∈ brokenOff, ¬step.Restores := by
    refine List.forall_mem_cons.2 ⟨id, fun step mem ↦ ?_⟩
    obtain ⟨w, -, rfl⟩ := List.mem_map.1 mem
    exact id
  obtain ⟨-, -, sampled⟩ := session_exact .ds brokenOff
  exact ⟨handed, by decide +kernel, (sampled refused).2 last 0xA6 handed, by decide +kernel⟩

end Board

end ClockChip
