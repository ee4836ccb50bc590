import ClockChip.Proofs.Shifting

/-!
# The bytes of a frame

A frame is whatever the host writes while the chip is selected: it sends bits and asks
for bits in any order, and it may let go of the chip in the middle of a byte.  Of all
this only the bits that it sends reach the registers (`writeAll_held`), eight of them
make a byte (`AtByte.takeBits_bits`), and fewer than eight are no access
(`bitAccesses_short`).  So the accesses of a frame are those of the bytes that its bits can
be packed into (`accesses_frame`), and the registers become what these bytes make of them
(`registers_frame`).
-/

namespace ClockChip

/-! ## The bits that the host sends -/

namespace Wire

/-- The bits of a byte in the order in which they are sent. -/
def bits (b : UInt8) : List Bool := (List.range 8).map b.toBitVec.getLsbD

/-- The bit that a word brings to the chip while it is selected. -/
def bitToChip? (w : Word) : Option Bool :=
  if clock.isSet w then none else if output.isSet w then some (data.isSet w) else none

/-- The bits that words bring to the chip while it is selected. -/
def bitsToChip (ws : List Word) : List Bool := ws.filterMap bitToChip?

theorem bitsToChip_append (ws ws' : List Word) :
    bitsToChip (ws ++ ws') = bitsToChip ws ++ bitsToChip ws' :=
  List.filterMap_append

theorem bitsToChip_sendBit (bit : Bool) : bitsToChip (sendBit bit) = [bit] := by
  cases bit <;> rfl

theorem bitsToChip_sendBits (bs : List Bool) : bitsToChip (bs.flatMap sendBit) = bs := by
  induction bs with
  | nil => rfl
  | cons bit bs ih =>
    rw [List.flatMap_cons, bitsToChip_append, bitsToChip_sendBit, ih]
    rfl

theorem sendByte_eq (b : UInt8) : sendByte b = (bits b).flatMap sendBit := by
  rw [sendByte, bits, List.flatMap_map]

theorem send_eq (bs : List UInt8) : send bs = (bs.flatMap bits).flatMap sendBit := by
  rw [send, List.flatMap_assoc]
  exact congrArg (bs.flatMap ·) (funext sendByte_eq)

/-- A host that sends keeps the chip selected. -/
theorem select_sendBits (bs : List Bool) : ∀ w ∈ bs.flatMap sendBit, select.isSet w = true := by
  intro w mem
  obtain ⟨bit, -, sent⟩ := List.mem_flatMap.1 mem
  rw [sendBit_eq, List.mem_cons, List.mem_singleton] at sent
  rcases sent with rfl | rfl
  · cases bit <;> rfl
  · cases bit <;> rfl

theorem select_sendByte (b : UInt8) : ∀ w ∈ sendByte b, select.isSet w = true := by
  rw [sendByte_eq]
  exact select_sendBits _

/-- So does a host that asks for bits. -/
theorem select_receive (n : Nat) : ∀ w ∈ receive n, select.isSet w = true := by
  intro w mem
  obtain ⟨poll, polls, asked⟩ := List.mem_flatten.1 mem
  rw [List.eq_of_mem_replicate polls, pollBit, List.mem_cons, List.mem_singleton] at asked
  rcases asked with rfl | rfl <;> rfl

/-! ## Bits as bytes -/

theorem pack_bits_append (b : UInt8) (rest : List Bool) :
    pack (bits b ++ rest) = b :: pack rest := by
  change UInt8.ofNat (number ((List.range 8).map b.toBitVec.getLsbD)) :: pack rest = _
  rw [number_bits]
  exact congrArg (· :: _) UInt8.ofNat_toNat

theorem pack_short {rest : List Bool} (short : rest.length < 8) : pack rest = [] := by
  unfold pack
  split
  · simp only [List.length_cons] at short
    omega
  · rfl

/-- An incomplete byte at the end is not there. -/
theorem pack_bytes_append (bs : List UInt8) {rest : List Bool} (short : rest.length < 8) :
    pack (bs.flatMap bits ++ rest) = bs := by
  induction bs with
  | nil => exact pack_short short
  | cons b bs ih => rw [List.flatMap_cons, List.append_assoc, pack_bits_append, ih]

/-- Any eight bits are those of a byte. -/
theorem eq_bits (b₀ b₁ b₂ b₃ b₄ b₅ b₆ b₇ : Bool) :
    [b₀, b₁, b₂, b₃, b₄, b₅, b₆, b₇] =
      bits (UInt8.ofNat (number [b₀, b₁, b₂, b₃, b₄, b₅, b₆, b₇])) := by
  revert b₀ b₁ b₂ b₃ b₄ b₅ b₆ b₇
  decide

/-- Bits begin with a byte, or there are too few of them. -/
theorem byte_or_short : ∀ l : List Bool, l.length < 8 ∨ ∃ b rest, l = bits b ++ rest
  | b₀ :: b₁ :: b₂ :: b₃ :: b₄ :: b₅ :: b₆ :: b₇ :: rest =>
    .inr ⟨_, rest, congrArg (· ++ rest) (eq_bits b₀ b₁ b₂ b₃ b₄ b₅ b₆ b₇)⟩
  | [] | [_] | [_, _] | [_, _, _] | [_, _, _, _] | [_, _, _, _, _] | [_, _, _, _, _, _]
  | [_, _, _, _, _, _, _] => .inl (by simp)

/-- Bits are some bytes and less than a byte more. -/
theorem exists_bytes (l : List Bool) :
    ∃ (bs : List UInt8) (rest : List Bool), l = bs.flatMap bits ++ rest ∧ rest.length < 8 := by
  rcases byte_or_short l with short | ⟨b, tail, parts⟩
  · exact ⟨[], l, rfl, short⟩
  · obtain ⟨bs, rest, eq, short⟩ := exists_bytes tail
    exact ⟨b :: bs, rest, by rw [parts, eq, List.flatMap_cons, List.append_assoc], short⟩
termination_by l.length
decreasing_by
  have eight : (bits b).length = 8 := rfl
  rw [parts, List.length_append, eight]
  omega

end Wire

namespace Edge

/-- While the chip is selected. -/
theorem of_held {latched w : Word} (held : Wire.select.isSet latched = true)
    (holds : Wire.select.isSet w = true) :
    of latched w =
      match Wire.bitToChip? w with
      | some bit => .toChip bit
      | none => if Wire.clock.isSet w then .idle else .fromChip := by
  unfold of Wire.bitToChip?
  rw [held, holds]
  cases Wire.clock.isSet w <;> cases Wire.output.isSet w <;> rfl

end Edge

namespace Chip

open Wire

/-! ## What reaches the registers -/

/-- The chip after some bits from the host. -/
def takeBits (bits : List Bool) (c : Chip) : Chip := bits.foldl (fun c bit ↦ c.takeBit bit) c

/-- The chip after some bytes from the host. -/
def receiveAll (bs : List UInt8) (c : Chip) : Chip := bs.foldl (fun c b ↦ c.receive b) c

/-- Chips that differ in the bus register and in what they are sending only. -/
def SameInput (c c' : Chip) : Prop :=
  ∃ bus output outputBit outputPos,
    c' = { c with bus, session := { c.session with output, outputBit, outputPos } }

variable {c c' : Chip}

theorem SameInput.refl (c : Chip) : SameInput c c := ⟨_, _, _, _, rfl⟩

theorem SameInput.trans {c c' c'' : Chip} (h : SameInput c c') (h' : SameInput c' c'') :
    SameInput c c'' := by
  obtain ⟨_, _, _, _, rfl⟩ := h
  obtain ⟨_, _, _, _, rfl⟩ := h'
  exact ⟨_, _, _, _, rfl⟩

theorem SameInput.answer (h : SameInput c c') : SameInput c.answer c'.answer := by
  obtain ⟨_, _, _, _, rfl⟩ := h
  unfold Chip.answer
  dsimp only
  split <;> exact ⟨_, _, _, _, rfl⟩

theorem SameInput.store (h : SameInput c c') (b : UInt8) : SameInput (c.store b) (c'.store b) := by
  obtain ⟨_, _, _, _, rfl⟩ := h
  unfold Chip.store
  dsimp only
  split <;> exact ⟨_, _, _, _, rfl⟩

theorem SameInput.command (h : SameInput c c') (b : UInt8) :
    SameInput (c.command b) (c'.command b) := by
  have named : SameInput { c with session.command := Command.normalize c.console b }
      { c' with session.command := Command.normalize c'.console b } := by
    obtain ⟨_, _, _, _, rfl⟩ := h
    exact ⟨_, _, _, _, rfl⟩
  have console : c'.console = c.console := by
    obtain ⟨_, _, _, _, rfl⟩ := h
    rfl
  unfold Chip.command
  dsimp only
  rw [console] at named ⊢
  split
  · exact named.answer
  · exact named

theorem SameInput.receive (h : SameInput c c') (b : UInt8) :
    SameInput (c.receive b) (c'.receive b) := by
  have moved {d d' : Chip} (h : SameInput d d') :
      SameInput { d with session.inputPos := d.session.inputPos + 1 }
        { d' with session.inputPos := d'.session.inputPos + 1 } := by
    obtain ⟨_, _, _, _, rfl⟩ := h
    exact ⟨_, _, _, _, rfl⟩
  have inputPos : c'.session.inputPos = c.session.inputPos := by
    obtain ⟨_, _, _, _, rfl⟩ := h
    rfl
  unfold Chip.receive
  rw [inputPos]
  split
  · exact moved (h.command b)
  · exact moved (h.store b)

theorem SameInput.takeBit (h : SameInput c c') (bit : Bool) :
    SameInput (c.takeBit bit) (c'.takeBit bit) := by
  obtain ⟨bus, output, outputBit, outputPos, rfl⟩ := h
  unfold Chip.takeBit Session.shiftIn
  dsimp only
  by_cases more : c.session.inputBit + 1 < 8
  · rw [if_pos more, if_pos more]
    exact ⟨_, _, _, _, rfl⟩
  · rw [if_neg more, if_neg more]
    apply SameInput.receive
    exact ⟨_, _, _, _, rfl⟩

theorem SameInput.giveBit (h : SameInput c c') : SameInput c c'.giveBit := by
  refine h.trans ?_
  unfold Chip.giveBit Session.shiftOut?
  split
  · exact .refl c'
  · next bit session given =>
    obtain ⟨b, -, eq⟩ := Option.map_eq_some_iff.1 given
    obtain ⟨-, rfl⟩ := Prod.mk.inj eq
    unfold Session.advance
    split <;> exact ⟨_, _, _, _, rfl⟩

theorem SameInput.latch (h : SameInput c c') (w : Word) : SameInput c (c'.latch w) :=
  h.trans ⟨_, _, _, _, rfl⟩

theorem held_latch (c : Chip) {w : Word} (holds : select.isSet w = true) :
    select.isSet (c.latch w).bus = true := by
  rw [latch]
  dsimp only
  split
  · exact holds
  · rw [select, BitRange.isSet_bit] at holds
    rw [select, BitRange.isSet_bit, data, BitRange.getLsbD_put, if_neg (by decide)]
    exact holds

theorem SameInput.edgeAccess? (h : SameInput c c') (bit : Bool) :
    c'.edgeAccess? (.toChip bit) = c.edgeAccess? (.toChip bit) := by
  obtain ⟨_, _, _, _, rfl⟩ := h
  unfold Chip.edgeAccess? Session.shiftIn
  dsimp only
  split <;> rfl

section

variable {w : Word}

/-- A word with a bit for the chip does what the bit does. -/
theorem SameInput.write_of_bit (same : SameInput c' c) (held : select.isSet c.bus = true)
    (holds : select.isSet w = true) {bit : Bool} (sent : bitToChip? w = some bit) :
    SameInput (c'.takeBit bit) (c.write w) ∧ c.access? w = c'.edgeAccess? (.toChip bit) := by
  have edge := Edge.of_held held holds
  rw [sent] at edge
  rw [write_of_edge edge, access?, edge]
  exact ⟨(same.takeBit bit).latch w, same.edgeAccess? bit⟩

/-- Any other word that keeps the chip selected does nothing that the host has sent. -/
theorem SameInput.write_of_none (same : SameInput c' c) (held : select.isSet c.bus = true)
    (holds : select.isSet w = true) (sent : bitToChip? w = none) :
    SameInput c' (c.write w) ∧ c.access? w = none := by
  have edge := Edge.of_held held holds
  rw [sent] at edge
  dsimp only at edge
  rw [write_of_edge edge, access?, edge]
  split
  · exact ⟨same.latch w, rfl⟩
  · exact ⟨same.giveBit.latch w, rfl⟩

end

/-- The accesses that bits from the host are. -/
def bitAccesses (bits : List Bool) (c : Chip) : List Access :=
  seenAlong (fun c bit ↦ (c.edgeAccess? (.toChip bit)).toList) (fun c bit ↦ c.takeBit bit) c bits

/-- Of the words of a frame only the bits from the host reach the registers. -/
theorem writeAll_held (held : select.isSet c.bus = true) {ws : List Word}
    (holds : ∀ w ∈ ws, select.isSet w = true) (same : SameInput c' c) :
    SameInput (c'.takeBits (bitsToChip ws)) (c.writeAll ws) ∧
      c.accesses ws = c'.bitAccesses (bitsToChip ws) := by
  induction ws generalizing c c' with
  | nil => exact ⟨same, rfl⟩
  | cons w ws ih =>
    obtain ⟨first, rest⟩ := List.forall_mem_cons.1 holds
    have held' : select.isSet (c.write w).bus = true := held_latch _ first
    rw [writeAll_cons, accesses_cons]
    cases sent : bitToChip? w with
    | some bit =>
      obtain ⟨next, access⟩ := same.write_of_bit held first sent
      obtain ⟨after, accesses⟩ := ih held' rest next
      have bits : bitsToChip (w :: ws) = bit :: bitsToChip ws := List.filterMap_cons_some sent
      rw [bits, access, accesses]
      exact ⟨after, rfl⟩
    | none =>
      obtain ⟨next, access⟩ := same.write_of_none held first sent
      have bits : bitsToChip (w :: ws) = bitsToChip ws := List.filterMap_cons_none sent
      rw [bits, access]
      exact ih held' rest next

/-! ## Bytes of bits -/

theorem takeBits_append (bits bits' : List Bool) (c : Chip) :
    c.takeBits (bits ++ bits') = (c.takeBits bits).takeBits bits' :=
  List.foldl_append

@[simp] theorem takeBits_singleton (bit : Bool) (c : Chip) : c.takeBits [bit] = c.takeBit bit :=
  rfl

theorem bitAccesses_append (bits bits' : List Bool) (c : Chip) :
    c.bitAccesses (bits ++ bits') = c.bitAccesses bits ++ (c.takeBits bits).bitAccesses bits' :=
  seenAlong_append c bits bits'

theorem bitAccesses_singleton (bit : Bool) (c : Chip) :
    c.bitAccesses [bit] = (c.edgeAccess? (.toChip bit)).toList :=
  seenAlong_singleton c bit

/-- The accesses that bytes from the host are. -/
def byteAccesses (bs : List UInt8) (c : Chip) : List Access :=
  seenAlong (fun c b ↦ (c.byteAccess? b).toList) (fun c b ↦ c.receive b) c bs

/-- Nothing of a byte has arrived yet. -/
structure AtByte (c : Chip) : Prop where
  input : c.session.input = 0
  inputBit : c.session.inputBit = 0

theorem AtByte.receive (h : c.AtByte) (b : UInt8) : (c.receive b).AtByte := by
  obtain ⟨_, received⟩ := c.session_receive b
  constructor
  · rw [received]
    exact h.input
  · rw [received]
    exact h.inputBit

theorem AtByte.session_eq (h : c.AtByte) :
    c.session = { c.session with input := 0, inputBit := 0 } := by
  rw [← h.input, ← h.inputBit]

/-- The chip with the first `i` bits of a byte in it. -/
def collected (b : UInt8) (i : Nat) (c : Chip) : Chip :=
  { c with session := { c.session with input := lowBits b i, inputBit := UInt32.ofNat i } }

/-- The first bits of a byte are collected and do nothing else. -/
theorem AtByte.takeBits_lowBits (h : c.AtByte) (b : UInt8) {i : Nat} (le : i ≤ 7) :
    c.takeBits ((List.range i).map b.toBitVec.getLsbD) = c.collected b i := by
  induction i with
  | zero =>
    rw [collected, lowBits_zero]
    exact congrArg (fun s ↦ { c with session := s }) h.session_eq
  | succ i ih =>
    rw [List.range_succ, List.map_append, takeBits_append, ih (Nat.le_of_succ_le le)]
    rw [List.map_singleton, takeBits_singleton, takeBit, collected]
    rw [shiftIn_lowBits c.session b le]
    rfl

/-- The bits of a byte are the first seven and the last one. -/
theorem bits_eq (b : UInt8) :
    bits b = (List.range 7).map b.toBitVec.getLsbD ++ [b.toBitVec.getLsbD 7] := rfl

/-- Eight bits are a byte. -/
theorem AtByte.takeBits_bits (h : c.AtByte) (b : UInt8) : c.takeBits (bits b) = c.receive b := by
  rw [bits_eq, takeBits_append, h.takeBits_lowBits b (Nat.le_refl 7), takeBits_singleton, takeBit,
    collected]
  dsimp only
  rw [shiftIn_last]
  dsimp only
  rw [← h.session_eq]

/-- The access of eight bits is that of the byte. -/
theorem AtByte.bitAccesses_bits (h : c.AtByte) (b : UInt8) :
    c.bitAccesses (bits b) = (c.byteAccess? b).toList := by
  have before (i : Nat) (le : i ≤ 7) :
      c.bitAccesses ((List.range i).map b.toBitVec.getLsbD) = [] := by
    induction i with
    | zero => rfl
    | succ i ih =>
      have incomplete : (c.collected b i).edgeAccess? (.toChip (b.toBitVec.getLsbD i)) = none :=
        edgeAccess?_of_incomplete (shiftIn_lowBits c.session b le)
      rw [List.range_succ, List.map_append, bitAccesses_append, ih (Nat.le_of_succ_le le),
        h.takeBits_lowBits b (Nat.le_of_succ_le le), List.map_singleton, bitAccesses_singleton,
        incomplete]
      rfl
  have last : (c.collected b 7).edgeAccess? (.toChip (b.toBitVec.getLsbD 7)) = c.byteAccess? b :=
    (edgeAccess?_of_shiftIn (c := c.collected b 7) (shiftIn_last c.session b)).trans rfl
  rw [bits_eq, bitAccesses_append, before 7 (Nat.le_refl 7),
    h.takeBits_lowBits b (Nat.le_refl 7), bitAccesses_singleton, last]
  rfl

/-- Fewer than eight bits are nothing. -/
theorem bitAccesses_short {bits : List Bool}
    (short : c.session.inputBit.toNat + bits.length < 8) : c.bitAccesses bits = [] := by
  induction bits generalizing c with
  | nil => rfl
  | cons bit bits ih =>
    rw [List.length_cons] at short
    have more : c.session.inputBit + 1 < 8 := by
      rw [UInt32.lt_iff_toNat_lt, UInt32.toNat_add]
      simp only [UInt32.reduceToNat]
      omega
    have shifted : c.session.shiftIn bit =
        (none, { c.session with
          input := c.session.accept bit
          inputBit := c.session.inputBit + 1 }) := by
      rw [Session.shiftIn, if_pos more]
    have next : (c.session.inputBit + 1).toNat = c.session.inputBit.toNat + 1 := by
      rw [UInt32.toNat_add]
      simp only [UInt32.reduceToNat]
      omega
    change (c.edgeAccess? (.toChip bit)).toList ++ (c.takeBit bit).bitAccesses bits = []
    rw [edgeAccess?_of_incomplete shifted, takeBit, shifted]
    exact ih (by dsimp only; omega)

/-- Bytes are taken one after another. -/
theorem AtByte.takeBits_bytes (h : c.AtByte) (bs : List UInt8) :
    c.takeBits (bs.flatMap bits) = c.receiveAll bs ∧ (c.receiveAll bs).AtByte ∧
      c.bitAccesses (bs.flatMap bits) = c.byteAccesses bs := by
  induction bs generalizing c with
  | nil => exact ⟨rfl, h, rfl⟩
  | cons b bs ih =>
    obtain ⟨taken, atByte, accesses⟩ := ih (h.receive b)
    rw [List.flatMap_cons, takeBits_append, bitAccesses_append, h.takeBits_bits,
      h.bitAccesses_bits, accesses]
    exact ⟨taken, atByte, rfl⟩

/-- The accesses of bits are those of the bytes that they make up. -/
theorem AtByte.bitAccesses_eq (h : c.AtByte) (l : List Bool) :
    c.bitAccesses l = c.byteAccesses (pack l) := by
  obtain ⟨bs, rest, rfl, short⟩ := exists_bytes l
  obtain ⟨taken, atByte, accesses⟩ := h.takeBits_bytes bs
  have incomplete : (c.receiveAll bs).session.inputBit.toNat + rest.length < 8 := by
    rw [atByte.inputBit]
    change 0 + rest.length < 8
    rwa [Nat.zero_add]
  rw [bitAccesses_append, taken, accesses, pack_bytes_append bs short,
    bitAccesses_short incomplete, List.append_nil]

/-! ## The frame as a whole -/

theorem write_released (c : Chip) : c.write released = { c with bus := released } := by
  rw [write_of_edge (Edge.of_released c.bus)]
  rfl

theorem writeAll_start (c : Chip) :
    c.writeAll start = { c with bus := selected, session := c.session.start } := by
  have free : select.isSet released = false := rfl
  rw [start, writeAll_cons, write_released, writeAll_cons,
    write_of_edge (Edge.of_selected free)]
  rfl

theorem held_start (c : Chip) : select.isSet (c.writeAll start).bus = true := by
  rw [writeAll_start]
  change select.isSet selected = true
  rfl

/-- The chip waits for the first bit of a command. -/
theorem sameInput_start (c : Chip) :
    SameInput { c with session := c.session.start } (c.writeAll start) := by
  rw [writeAll_start]
  exact ⟨_, _, _, _, rfl⟩

theorem atByte_start (c : Chip) : AtByte { c with session := c.session.start } := ⟨rfl, rfl⟩

/-- Letting go of the chip does nothing to the registers. -/
theorem registers_stop (c : Chip) : (c.writeAll stop).registers = c.registers := by
  rw [stop, writeAll_cons, write_released]
  rfl

/-- Selecting the chip and letting go of it are no accesses. -/
theorem accesses_start (c : Chip) : c.accesses start = [] := by
  have edge : Edge.of released selected = .start := Edge.of_selected rfl
  have second : { c with bus := released }.access? selected = none := by
    rw [access?]
    dsimp only
    rw [edge]
    rfl
  rw [start, accesses_cons, write_released, access?, Edge.of_released, accesses_cons, second]
  rfl

theorem accesses_stop (c : Chip) : c.accesses stop = [] := by
  rw [stop, accesses_cons, access?, Edge.of_released]
  rfl

/-- Whatever went on before the chip was selected, and whatever the host writes then, the
accesses of a frame are those of its bytes. -/
theorem accesses_frame (c : Chip) {ws : List Word}
    (holds : ∀ w ∈ ws, select.isSet w = true) :
    c.accesses (start ++ ws) =
      { c with session := c.session.start }.byteAccesses (pack (bitsToChip ws)) := by
  have held := writeAll_held (held_start c) holds (sameInput_start c)
  rw [accesses_append, accesses_start, held.2, (atByte_start c).bitAccesses_eq]
  rfl

/-- So the registers become what the bytes of the frame make of them. -/
theorem registers_frame (c : Chip) {ws : List Word}
    (holds : ∀ w ∈ ws, select.isSet w = true) :
    (c.writeAll (start ++ ws)).registers =
      ({ c with session := c.session.start }.receiveAll (pack (bitsToChip ws))).registers := by
  rw [registers_writeAll, accesses_frame c holds]
  exact (registers_along (fun c b ↦ registers_receive b c) _
    { c with session := c.session.start }).symm

end Chip

end ClockChip
