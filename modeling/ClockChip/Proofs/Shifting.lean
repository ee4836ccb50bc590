import ClockChip.Proofs.Bus

/-!
# Bits and bytes on the wire

While the chip is selected a byte goes over the data line bit by bit.  On its way to the
chip it is collected from the low end (`Collecting`), and the eighth bit hands it over
(`write_last`); on its way from the chip the bits of the output buffer follow each other
(`Sending`), and beyond the end of the buffer its last byte is sent again and again.  In
between the clock goes up, which the chip does not mind.  None of these writes reaches the
registers but the one that completes a byte.

On the host's side the bits that were sent are packed into the bytes of the buffer again
(`pack_sentBits`).
-/

namespace ClockChip

/-! ## Words -/

namespace Wire

/-- The clock goes low with a bit for the chip on the data line. -/
def clockLow (bit : Bool) : Word := data.put bit 0x0014

/-- The clock goes high again. -/
def clockHigh (bit : Bool) : Word := data.put bit 0x0016

theorem sendBit_eq (bit : Bool) : sendBit bit = [clockLow bit, clockHigh bit] := rfl

/-- The words of a byte but for its last bit. -/
theorem take_sendByte (b : UInt8) :
    (sendByte b).take 14 = (List.range' 0 7).flatMap fun i ↦ sendBit (b.toBitVec.getLsbD i) := rfl

/-- Readings are taken in pairs, so an even number of them can be split off. -/
theorem samples_append {readings : List Word} (even : readings.length % 2 = 0)
    (more : List Word) : samples (readings ++ more) = samples readings ++ samples more := by
  fun_induction samples readings with
  | case1 first w ws ih =>
    have rest : ws.length % 2 = 0 := by
      rw [List.length_cons, List.length_cons] at even
      omega
    rw [List.cons_append, List.cons_append, samples, ih rest, List.cons_append]
  | case2 readings short =>
    match readings, even with
    | [], _ => rfl
    | first :: w :: ws, _ => exact absurd rfl (short first w ws)

end Wire

namespace Edge

open Wire

variable {latched : Word}

theorem of_released (latched : Word) : of latched released = .idle := rfl

theorem of_selected (free : select.isSet latched = false) : of latched selected = .start := by
  unfold of
  rw [free]
  rfl

theorem of_clockLow (held : select.isSet latched = true) (bit : Bool) :
    of latched (clockLow bit) = .toChip bit := by
  unfold of
  rw [held]
  cases bit <;> rfl

theorem of_clockHigh (held : select.isSet latched = true) (bit : Bool) :
    of latched (clockHigh bit) = .idle := by
  unfold of
  rw [held]
  cases bit <;> rfl

theorem of_poll (held : select.isSet latched = true) : of latched 0x0004 = .fromChip := by
  unfold of
  rw [held]
  rfl

theorem of_polled (held : select.isSet latched = true) : of latched 0x0006 = .idle := by
  unfold of
  rw [held]
  rfl

end Edge

/-! ## Answers -/

namespace Registers

/-- The widest group is the date and time. -/
theorem length_read_le (g : Group) (r : Registers) : (r.read g).length ≤ 7 := by
  cases g with
  | alarm1 =>
    rw [read]
    split <;> simp
  | _ => simp [read, minuteBytes]

/-- The bytes with which a read command is answered: none if it addresses no group. -/
def answer (group : Option Group) (r : Registers) : List UInt8 :=
  match group with
  | none => []
  | some g => r.read g

/-- The registers when a read command has been answered. -/
def answered (group : Option Group) (r : Registers) : Registers :=
  match group with
  | none => r
  | some g => r.acknowledge g

/-- An answer is shorter than the output buffer. -/
theorem length_answer_le (group : Option Group) (r : Registers) :
    (r.answer group).length ≤ 7 := by
  cases group with
  | none => exact Nat.zero_le 7
  | some g => exact r.length_read_le g

end Registers

namespace Chip

open Wire

variable {c : Chip}

theorem write_of_edge {w : Word} {e : Edge} (edge : Edge.of c.bus w = e) :
    c.write w = (c.serve e).latch w := by
  rw [write, edge]

/-- A word with the host's direction is kept as it is. -/
theorem bus_latch (c : Chip) {w : Word} (output : Wire.output.isSet w = true) :
    (c.latch w).bus = w := by
  rw [latch, output]
  rfl

/-- While the host sends, the chip stays selected. -/
theorem selected_clockLow (c : Chip) (bit : Bool) :
    select.isSet (c.latch (clockLow bit)).bus = true := by
  rw [bus_latch c (by cases bit <;> rfl)]
  cases bit <;> rfl

theorem selected_clockHigh (c : Chip) (bit : Bool) :
    select.isSet (c.latch (clockHigh bit)).bus = true := by
  rw [bus_latch c (by cases bit <;> rfl)]
  cases bit <;> rfl

/-! ## To the chip -/

/-- The low bits of a byte. -/
def lowBits (b : UInt8) (i : Nat) : UInt8 := ⟨(b.toBitVec.setWidth i).setWidth 8⟩

theorem lowBits_zero (b : UInt8) : lowBits b 0 = 0 := by
  have none : b.toBitVec.setWidth 0 = 0#0 := BitVec.eq_nil _
  rw [lowBits, none]
  rfl

/-- The next bit goes above those that are there. -/
theorem accept_lowBits (s : Session) (b : UInt8) {i : Nat} (lt : i < 8) :
    Session.accept { s with input := lowBits b i, inputBit := UInt32.ofNat i }
      (b.toBitVec.getLsbD i) = lowBits b (i + 1) := by
  have all : ∀ v : BitVec 8, ∀ i < 8,
      (if v.getLsbD i then lowBits ⟨v⟩ i ||| 1 <<< (UInt32.ofNat i).toUInt8 else lowBits ⟨v⟩ i) =
        lowBits ⟨v⟩ (i + 1) := by
    decide +kernel
  exact all b.toBitVec i lt

/-- A bit before the last one of a byte is collected. -/
theorem shiftIn_lowBits (s : Session) (b : UInt8) {i : Nat} (before : i < 7) :
    Session.shiftIn { s with input := lowBits b i, inputBit := UInt32.ofNat i }
        (b.toBitVec.getLsbD i) =
      (none, { s with input := lowBits b (i + 1), inputBit := UInt32.ofNat (i + 1) }) := by
  have more : UInt32.ofNat i + 1 < 8 := by
    rw [UInt32.lt_iff_toNat_lt, UInt32.toNat_add, UInt32.toNat_ofNat']
    simp only [UInt32.reduceToNat]
    omega
  rw [Session.shiftIn, accept_lowBits s b (Nat.lt_succ_of_lt before), if_pos more,
    UInt32.ofNat_add]
  rfl

/-- The last bit of a byte completes it. -/
theorem shiftIn_last (s : Session) (b : UInt8) :
    Session.shiftIn { s with input := lowBits b 7, inputBit := UInt32.ofNat 7 }
        (b.toBitVec.getLsbD 7) =
      (some b, { s with input := 0, inputBit := 0 }) := by
  have whole : lowBits b 8 = b := by
    rw [lowBits, BitVec.setWidth_eq, BitVec.setWidth_eq]
  rw [Session.shiftIn, accept_lowBits s b (by decide), whole]
  rfl

/-- The chip is selected and has taken the first `i` bits of a byte in a session that is
otherwise `s`. -/
structure Collecting (b : UInt8) (i : Nat) (s : Session) (c : Chip) : Prop where
  selected : select.isSet c.bus = true
  session : c.session = { s with input := lowBits b i, inputBit := UInt32.ofNat i }

variable {b : UInt8} {i : Nat} {s : Session}

/-- A bit before the last is collected. -/
theorem Collecting.clockLow (h : Collecting b i s c) (before : i < 7) :
    Collecting b (i + 1) s (c.write (clockLow (b.toBitVec.getLsbD i))) ∧
      (c.write (Wire.clockLow (b.toBitVec.getLsbD i))).registers = c.registers := by
  have shifted := shiftIn_lowBits s b before
  rw [← h.session] at shifted
  rw [write_of_edge (Edge.of_clockLow h.selected _), serve, takeBit, shifted]
  exact ⟨⟨selected_clockLow _ _, rfl⟩, rfl⟩

theorem Collecting.clockHigh (h : Collecting b i s c) (bit : Bool) :
    Collecting b i s (c.write (Wire.clockHigh bit)) ∧
      (c.write (Wire.clockHigh bit)).registers = c.registers := by
  rw [write_of_edge (Edge.of_clockHigh h.selected bit)]
  exact ⟨⟨selected_clockHigh _ bit, h.session⟩, rfl⟩

/-- The last bit hands the byte over. -/
theorem Collecting.write_last (h : Collecting b 7 s c) :
    c.write (Wire.clockLow (b.toBitVec.getLsbD 7)) =
      ({ c with session := { s with input := 0, inputBit := 0 } }.receive b).latch
        (Wire.clockLow (b.toBitVec.getLsbD 7)) := by
  have shifted := shiftIn_last s b
  rw [← h.session] at shifted
  rw [write_of_edge (Edge.of_clockLow h.selected _), serve, takeBit, shifted]

/-! ## From the chip -/

/-- The chip is selected and has sent the first `j` bits of its output buffer. -/
structure Sending (out : Vector UInt8 8) (j : Nat) (c : Chip) : Prop where
  selected : select.isSet c.bus = true
  output : c.session.output = out
  outputBit : c.session.outputBit = UInt32.ofNat (j % 8)
  outputPos : c.session.outputPos = UInt32.ofNat (min (j / 8) 7)

/-- Byte `k` of a transfer.  The last byte of the buffer is sent for ever. -/
def byteAt (out : Vector UInt8 8) (k : Nat) : UInt8 := out.get ⟨min k 7, by omega⟩

/-- The bit that a buffer sends after `j` bits. -/
def sentBit (out : Vector UInt8 8) (j : Nat) : Bool :=
  (byteAt out (j / 8)).toBitVec.getLsbD (j % 8)

/-- A bit of a byte, as it is masked out. -/
theorem masked_bit (b : UInt8) {i : Nat} (lt : i < 8) :
    (b &&& 1 <<< (UInt32.ofNat i).toUInt8 != 0) = b.toBitVec.getLsbD i := by
  have all : ∀ v : BitVec 8, ∀ i < 8,
      ((⟨v⟩ : UInt8) &&& 1 <<< (UInt32.ofNat i).toUInt8 != 0) = v.getLsbD i := by
    decide +kernel
  exact all b.toBitVec i lt

variable {out : Vector UInt8 8} {j : Nat}

theorem Sending.shiftOut (h : Sending out j c) :
    c.session.shiftOut? = some (sentBit out j, c.session.advance) := by
  have position : c.session.outputPos.toNat = min (j / 8) 7 := by
    rw [h.outputPos, UInt32.toNat_ofNat']
    omega
  have byte : c.session.output[c.session.outputPos.toNat]? = some (byteAt out (j / 8)) := by
    rw [position, h.output]
    exact Vector.getElem?_eq_getElem (by omega)
  rw [Session.shiftOut?, byte, h.outputBit, Option.map_some,
    masked_bit _ (Nat.mod_lt j (by decide))]
  rfl

/-- After the last bit of a byte the cursor goes on, but not beyond the last byte. -/
theorem Sending.advance (h : Sending out j c) :
    c.session.advance =
      { c.session with
        outputBit := UInt32.ofNat ((j + 1) % 8)
        outputPos := UInt32.ofNat (min ((j + 1) / 8) 7) } := by
  have within : c.session.outputBit + 1 < 8 ↔ j % 8 < 7 := by
    rw [h.outputBit, UInt32.lt_iff_toNat_lt, UInt32.toNat_add, UInt32.toNat_ofNat']
    simp only [UInt32.reduceToNat]
    omega
  have before : c.session.outputPos < 7 ↔ j / 8 < 7 := by
    rw [h.outputPos, UInt32.lt_iff_toNat_lt, UInt32.toNat_ofNat']
    simp only [UInt32.reduceToNat]
    omega
  unfold Session.advance
  by_cases inside : j % 8 < 7
  · have bit : (j + 1) % 8 = j % 8 + 1 := by omega
    have position : (j + 1) / 8 = j / 8 := by omega
    rw [if_pos (within.2 inside), bit, position, UInt32.ofNat_add, ← h.outputBit, ← h.outputPos]
    rfl
  · have bit : (j + 1) % 8 = 0 := by omega
    rw [if_neg (mt within.1 inside), bit]
    by_cases more : j / 8 < 7
    · have position : min ((j + 1) / 8) 7 = min (j / 8) 7 + 1 := by omega
      rw [if_pos (before.2 more), position, UInt32.ofNat_add, ← h.outputPos]
      rfl
    · have position : min ((j + 1) / 8) 7 = min (j / 8) 7 := by omega
      rw [if_neg (mt before.1 more), position, ← h.outputPos]
      rfl

/-- A word with the chip's direction gets the bit that is on the data line. -/
theorem bus_latch_chip (c : Chip) {w : Word} (output : Wire.output.isSet w = false) :
    (c.latch w).bus = data.put (data.isSet c.bus) w := by
  rw [latch, output]
  rfl

/-- The host asks for a bit and finds it on the data line. -/
theorem Sending.poll (h : Sending out j c) :
    Sending out (j + 1) (c.write 0x0004) ∧ (c.write 0x0004).registers = c.registers ∧
      data.isSet (c.write 0x0004).bus = sentBit out j := by
  have wrote : c.write 0x0004 =
      { c with session := c.session.advance, bus := data.put (sentBit out j) c.bus }.latch
        0x0004 := by
    rw [write_of_edge (Edge.of_poll h.selected), serve, giveBit, h.shiftOut]
  have bus : (c.write 0x0004).bus = data.put (sentBit out j) 0x0004 := by
    rw [wrote, bus_latch_chip _ rfl, data, BitRange.isSet_put]
  have session : (c.write 0x0004).session = c.session.advance := congrArg Chip.session wrote
  rw [h.advance] at session
  refine ⟨⟨?_, ?_, ?_, ?_⟩, ?_, ?_⟩
  · rw [bus]
    cases sentBit out j <;> rfl
  · rw [session]
    exact h.output
  · rw [session]
  · rw [session]
  · rw [wrote]
    rfl
  · rw [bus, data, BitRange.isSet_put]

/-- The clock goes up while the bit stays on the data line. -/
theorem Sending.polled (h : Sending out j c) :
    Sending out j (c.write 0x0006) ∧ (c.write 0x0006).registers = c.registers ∧
      data.isSet (c.write 0x0006).bus = data.isSet c.bus := by
  rw [write_of_edge (Edge.of_polled h.selected), bus_latch_chip _ rfl]
  refine ⟨⟨?_, h.output, h.outputBit, h.outputPos⟩, rfl, ?_⟩
  · rw [bus_latch_chip _ rfl]
    cases data.isSet (c.serve .idle).bus <;> rfl
  · rw [data, BitRange.isSet_put]
    rfl

/-- So does a clock that goes up with the host's direction. -/
theorem Sending.clockHigh (h : Sending out j c) (bit : Bool) :
    Sending out j (c.write (Wire.clockHigh bit)) ∧
      (c.write (Wire.clockHigh bit)).registers = c.registers := by
  rw [write_of_edge (Edge.of_clockHigh h.selected bit)]
  exact ⟨⟨selected_clockHigh _ bit, h.output, h.outputBit, h.outputPos⟩, rfl⟩

/-! ## Commands that read -/

theorem load_nil (s : Session) : s.load [] = s := by
  have same : s.output.mapIdx (fun i b ↦ ([] : List UInt8)[i]?.getD b) = s.output := by
    apply Vector.ext
    intro i lt
    rw [Vector.getElem_mapIdx]
    rfl
  rw [Session.load, same]

/-- The first byte of a transfer, if it reads, puts the answer into the buffer. -/
theorem receive_read (first : c.session.inputPos = 0)
    (reads : Command.isRead (Command.normalize c.console b) = true) :
    let command := Command.normalize c.console b
    let group := Command.group? c.console command
    c.receive b =
      { c with
        session := { c.session.load (c.registers.answer group) with inputPos := 1, command }
        registers := c.registers.answered group } := by
  rw [receive, if_pos first, Chip.command, if_pos reads, Chip.answer]
  dsimp only
  cases Command.group? c.console (Command.normalize c.console b) with
  | none =>
    dsimp only [Registers.answer, Registers.answered]
    rw [load_nil, first]
    rfl
  | some g =>
    dsimp only [Session.load, Registers.answer, Registers.answered]
    rw [first]
    rfl

/-- The last bit of a command that reads starts the answer. -/
theorem Collecting.write_command (h : Collecting b 7 s.start c)
    (reads : Command.isRead (Command.normalize c.console b) = true) :
    let group := Command.group? c.console (Command.normalize c.console b)
    let asked := c.write (Wire.clockLow (b.toBitVec.getLsbD 7))
    Sending (s.start.load (c.registers.answer group)).output 0 asked ∧
      asked.registers = c.registers.answered group := by
  intro group asked
  have received := receive_read (b := b) (c := { c with session := s.start }) rfl reads
  have wrote : asked = _ := h.write_last
  have session : { s.start with input := 0, inputBit := 0 } = s.start := rfl
  rw [session, received] at wrote
  rw [wrote]
  exact ⟨⟨selected_clockLow _ _, rfl, rfl, rfl⟩, rfl⟩

/-- An answer is followed by zeros. -/
theorem byteAt_load (s : Session) {bs : List UInt8} (le : bs.length ≤ 7) (k : Nat) :
    byteAt (s.start.load bs).output k = bs[k]?.getD 0 := by
  have at_min : byteAt (s.start.load bs).output k = bs[min k 7]?.getD 0 := by
    have lt : min k 7 < 8 := by omega
    change (s.start.load bs).output[min k 7] = _
    dsimp only [Session.load, Session.start]
    rw [Vector.getElem_mapIdx, Vector.getElem_replicate]
  rw [at_min]
  rcases Nat.le_total k 7 with inside | beyond
  · rw [Nat.min_eq_left inside]
  · rw [Nat.min_eq_right beyond, List.getElem?_eq_none le,
      List.getElem?_eq_none (Nat.le_trans le beyond)]

/-! ## On the host's side -/

theorem sentBit_byte (out : Vector UInt8 8) (i : Nat) {k : Nat} (lt : k < 8) :
    sentBit out (8 * i + k) = (byteAt out i).toBitVec.getLsbD k := by
  have byte : (8 * i + k) / 8 = i := by omega
  have bit : (8 * i + k) % 8 = k := by omega
  rw [sentBit, byte, bit]

/-- The host gets the bytes of the buffer, from the one that is due on. -/
theorem pack_sentBits (out : Vector UInt8 8) (i n : Nat) :
    pack ((List.range' (8 * i) (8 * n)).map (sentBit out)) =
      (List.range' i n).map (byteAt out) := by
  induction n generalizing i with
  | zero => rfl
  | succ n ih =>
    have byte : number ((List.range 8).map fun k ↦ sentBit out (8 * i + k)) =
        (byteAt out i).toNat := by
      have bits : (List.range 8).map (fun k ↦ sentBit out (8 * i + k)) =
          (List.range 8).map (byteAt out i).toBitVec.getLsbD :=
        List.map_congr_left fun k mem ↦ sentBit_byte out i (List.mem_range.1 mem)
      rw [bits, number_bits]
      rfl
    change UInt8.ofNat (number ((List.range 8).map fun k ↦ sentBit out (8 * i + k))) ::
      pack ((List.range' (8 * (i + 1)) (8 * n)).map (sentBit out)) = _
    rw [byte, UInt8.ofNat_toNat, ih, List.range'_succ, List.map_cons]

/-- Bytes and the zeros behind them, as many as are asked for. -/
theorem map_getD_range' (bs : List UInt8) (n : Nat) :
    (List.range' 0 n).map (fun k ↦ bs[k]?.getD 0) = (bs ++ List.replicate n 0).take n := by
  apply List.ext_getElem?
  intro k
  rcases Nat.lt_or_ge k n with lt | ge
  · rw [List.getElem?_map, List.getElem?_range' lt, List.getElem?_take_of_lt lt, Option.map_some]
    rcases Nat.lt_or_ge k bs.length with inside | beyond
    · rw [List.getElem?_append_left inside, Nat.zero_add, Nat.one_mul,
        List.getElem?_eq_getElem inside]
      rfl
    · rw [List.getElem?_append_right beyond, List.getElem?_replicate, if_pos (by omega),
        Nat.zero_add, Nat.one_mul, List.getElem?_eq_none beyond]
      rfl
  · rw [List.getElem?_eq_none (by rw [List.length_map, List.length_range']; exact ge),
      List.getElem?_eq_none (Nat.le_trans (List.length_take_le n _) ge)]

end Chip

end ClockChip
