import ClockChip.Proofs.Restoring

/-!
# What a load leaves

A load makes two things of a machine.  Whatever the stream holds, the machine has then
settled: its cursors and its counters are in their ranges, its registers show a date that
there is, and the tick that waits is not late (`settled_restore`).  Of a settled snapshot
nothing is repaired any more (`Snapshot.Settled.snapshot_restore`), so that the stream which
is written next gives it back as it is, and the stream after that is the same.

And whatever had been done to the machine before is forgotten: the time of the last tick,
the registrations and the event that waited are in no stream, and none of them is looked
at again.  Two machines that have loaded the same stream are alike but for their
configuration, which only a reset looks at (`alike_of_restore`), and go on giving the same
answers (`Alike.sameAnswers`).
-/

namespace ClockChip.Savestate

/-! ## What a read can give -/

variable {ε α β : Type}

/-- Whatever the read gives has this property. -/
def Gives (read : EStateM ε Reader α) (p : α → Prop) : Prop :=
  ∀ r v r', read r = .ok v r' → p v

theorem Gives.pure {p : α → Prop} {v : α} (h : p v) :
    Gives (Pure.pure v : EStateM ε Reader α) p := by
  rintro r _ _ ⟨⟩
  exact h

theorem Gives.bind {x : EStateM ε Reader α} {f : α → EStateM ε Reader β} {p : α → Prop}
    {q : β → Prop} (hx : Gives x p) (hf : ∀ a, p a → Gives (f a) q) : Gives (x >>= f) q := by
  intro r v r' h
  cases first : x r with
  | ok a s =>
    rw [Read.bind_of_ok first] at h
    exact hf a (hx r a s first) s v r' h
  | error e s =>
    rw [Read.bind_of_error first] at h
    cases h

/-- What is given behind a read that may give anything. -/
theorem Gives.after {x : EStateM ε Reader α} {f : α → EStateM ε Reader β} {q : β → Prop}
    (hf : ∀ a, Gives (f a) q) : Gives (x >>= f) q :=
  Gives.bind (p := fun _ ↦ True) (fun _ _ _ _ ↦ trivial) fun a _ ↦ hf a

end ClockChip.Savestate

namespace ClockChip

open Savestate

/-! ## Snapshots from a stream -/

theorem Session.gives_cursors : Gives readFields Cursors :=
  .after fun _ ↦ .after fun _ ↦ .after fun _ ↦ .after fun _ ↦ .after fun _ ↦ .after fun _ ↦
    .after fun _ ↦ .pure
      { inputBit := UInt32.mod_lt _ (by decide)
        outputBit := UInt32.mod_lt _ (by decide)
        outputPos := Std.min_le_right }

namespace Registers

theorem gives_minutesFit : Gives readFields MinutesFit := by
  have masked (n : UInt32) : n &&& minuteMask &&& minuteMask = n &&& minuteMask := by
    rw [UInt32.and_assoc, UInt32.and_self]
  exact .after fun _ ↦ .after fun _ ↦ .after fun _ ↦ .after fun _ ↦ .after fun _ ↦
    .after fun _ ↦ .after fun _ ↦ .after fun _ ↦ .after fun _ ↦ .after fun _ ↦
    .after fun _ ↦ .after fun minuteCount ↦ .pure (masked minuteCount)

theorem toNat_minuteMask (n : UInt32) : (n &&& minuteMask).toNat = n.toNat % 0x1000000 := by
  rw [UInt32.toNat_and]
  exact Nat.and_two_pow_sub_one_eq_mod n.toNat 24

theorem minutesFit_iff {r : Registers} : r.MinutesFit ↔ r.minuteCount.toNat < 0x1000000 := by
  rw [MinutesFit, ← UInt32.toNat_inj, toNat_minuteMask]
  exact Nat.mod_eq_iff_lt (by decide)

end Registers

theorem Chip.Snapshot.gives_inRange :
    Gives readFields fun s ↦ s.session.Cursors ∧ s.registers.MinutesFit :=
  .after fun _ ↦ .after fun _ ↦ Session.gives_cursors.bind fun _ cursors ↦
    Registers.gives_minutesFit.bind fun _ minutes ↦ .after fun _ ↦ .pure ⟨cursors, minutes⟩

/-- A restored chip is new but for its console and its registration. -/
theorem Chip.restore_of_console {c c' : Chip} (console : c'.console = c.console)
    (s : Snapshot) : c'.restore s = (c.restore s).withHandle c'.tickHandle := by
  obtain ⟨console', _, _, _, _, handle'⟩ := c'
  subst console
  rfl

namespace Machine

namespace Snapshot

theorem gives_within {α : Type} {read : Read α} {p : α → Prop} (part : Option Part)
    (h : Gives read p) : Gives (within part read) p := by
  intro r v r' eq
  cases result : read r with
  | ok a s =>
    rw [within_of_ok part result] at eq
    obtain ⟨rfl, rfl⟩ := EStateM.Result.ok.inj eq
    exact h r a s result
  | error e s =>
    rw [within_of_error part result] at eq
    cases eq

/-- What a snapshot from a stream has been spared: cursors out of their ranges, a minute
counter beyond its own, and a tick at the time that stands for none. -/
structure FromStream (s : Snapshot) : Prop where
  cursors : s.chip.session.Cursors
  minutes : s.chip.registers.MinutesFit
  due : s.due ≠ some Scheduler.never

theorem gives_fromStream : Gives readFields FromStream := by
  have notNever (due : UInt64) :
      (if due = Scheduler.never then none else some due) ≠ some Scheduler.never := by
    split
    · nofun
    · next other => exact mt Option.some.inj other
  exact .after fun _ ↦ .after fun _ ↦ .after fun _ ↦ .after fun due ↦
    (gives_within (some .chip) Chip.Snapshot.gives_inRange).bind fun _ chip ↦
      .pure ⟨chip.1, chip.2, notNever due⟩

theorem fromStream_of_decode {data : List UInt8} {s : Snapshot} (h : decode data = .ok s) :
    s.FromStream := by
  unfold decode at h
  split at h
  · next result =>
    cases h
    exact gives_fromStream _ _ _ result
  · cases h

/-! ## Settled snapshots -/

/-- A snapshot in which a load finds nothing to repair. -/
structure Settled (s : Snapshot) : Prop where
  cursors : s.chip.session.Cursors
  minutes : s.chip.registers.minuteCount.toNat < 0x1000000
  wellFormed : s.chip.registers.WellFormed
  dayExists : s.chip.registers.calendar.DayExists
  /-- The tick is not late, nor at the time that stands for none. -/
  due : ∀ due, s.due = some due → s.now ≤ due ∧ due ≠ Scheduler.never

variable {s : Snapshot}

/-- A stream gives a settled snapshot back. -/
theorem Settled.clamped (h : s.Settled) : s.clamped = s := by
  have chip : s.chip.clamped = s.chip := by
    rw [Chip.Snapshot.clamped, h.cursors.clamped, (Registers.minutesFit_iff.2 h.minutes).clamped]
  have notNever : s.due ≠ some Scheduler.never := fun never ↦ (h.due _ never).2 rfl
  rw [Snapshot.clamped, chip, if_neg notNever]

theorem Settled.decode_encode (h : s.Settled) : decode (encode s.fields) = .ok s := by
  have decoded := s.decode_encode []
  rwa [List.append_nil, h.clamped] at decoded

/-- A tick that is not late is due again when it was. -/
theorem Settled.dueRestored (h : s.Settled) : s.dueRestored = s.due := by
  rw [Snapshot.dueRestored]
  cases eq : s.due with
  | none => rfl
  | some due =>
    rw [Option.map_some, if_pos (h.due due eq).1, UInt64.add_comm, UInt64.sub_add_cancel]

theorem Settled.sanitize (h : s.Settled) : s.chip.registers.sanitize = s.chip.registers := by
  rw [Registers.sanitize, Calendar.WellFormed.sanitize h.wellFormed,
    Calendar.leaveMonth_of_dayExists h.dayExists]

end Snapshot

variable {m m' : Machine}

/-! ## Restored machines -/

/-- A restored machine has the tick of the snapshot, not earlier than the present, and
everything else of it but for the repair of the calendar. -/
theorem Waiting.snapshot_restore {due : Option UInt64} (h : m.Waiting due) (s : Snapshot) :
    (m.restore s).snapshot =
      ⟨s.now, s.dueRestored, { s.chip with registers := s.chip.registers.sanitize }⟩ := by
  rw [snapshot, (h.restore s).find?, now_restore]
  rfl

/-- Whatever a stream holds, the machine that has loaded it has settled. -/
theorem settled_restore {due : Option UInt64} (h : m.Waiting due) {s : Snapshot}
    (fromStream : s.FromStream) (early : s.now ≠ Scheduler.never) :
    (m.restore s).snapshot.Settled := by
  rw [h.snapshot_restore]
  refine ⟨fromStream.cursors, Registers.minutesFit_iff.1 fromStream.minutes,
    s.chip.registers.wellFormed_sanitize, ?_, ?_⟩
  · exact (Calendar.shows_sanitize s.chip.registers.hourMode s.chip.registers.calendar).day
  · intro due restored
    obtain ⟨stored, eq, rfl⟩ := Option.map_eq_some_iff.1 restored
    split
    · next later =>
      rw [UInt64.add_comm, UInt64.sub_add_cancel]
      exact ⟨later, fun never ↦ fromStream.due (eq.trans (congrArg some never))⟩
    · rw [UInt64.add_zero]
      exact ⟨UInt64.le_refl _, early⟩

/-- A settled snapshot comes out of any machine as it went in. -/
theorem Snapshot.Settled.snapshot_restore {s : Snapshot} (settled : s.Settled)
    {due : Option UInt64} (h : m.Waiting due) : (m.restore s).snapshot = s := by
  rw [h.snapshot_restore, settled.dueRestored, settled.sanitize]

/-- Whatever a machine has loaded, the stream that it writes next is a normal form.  It has
ninety-five bytes and holds a settled snapshot: cursors and counters in their ranges, a date
that there is, and a tick that is not late.  Any machine loads it and has the same snapshot
then, with the registers, the session, the bus register, the oscillator and the time as they
were and the one tick, if there is one, due when it was; and what that machine writes is the
same stream. -/
theorem Reachable.load_settles (h : Reachable m) (h' : Reachable m') {data : List UInt8}
    {loaded : Machine} (accepted : m.load data = .ok loaded)
    (early : loaded.scheduler.now ≠ Scheduler.never) :
    loaded.save.length = 95 ∧ loaded.save = Savestate.encode loaded.snapshot.fields ∧
      loaded.snapshot.Settled ∧
      ∃ again, m'.load loaded.save = .ok again ∧ again.snapshot = loaded.snapshot ∧
        again.save = loaded.save ∧
        ∃ due : Option UInt64,
          loaded.scheduler.events = due.toList.map (⟨·, loaded.chip.tickHandle⟩) ∧
          again.scheduler.events = due.toList.map (⟨·, again.chip.tickHandle⟩) := by
  obtain ⟨s, decoded, rfl⟩ := load_eq_ok_iff.1 accepted
  obtain ⟨due, waiting⟩ := h.waiting
  obtain ⟨due', waiting'⟩ := h'.waiting
  rw [now_restore] at early
  have settled := settled_restore waiting (Snapshot.fromStream_of_decode decoded) early
  have same := settled.snapshot_restore waiting'
  have restored := waiting.restore s
  have again : (m'.restore (m.restore s).snapshot).Waiting s.dueRestored := by
    have due : (m.restore s).snapshot.dueRestored = s.dueRestored := by
      rw [settled.dueRestored, waiting.snapshot_restore]
    rw [← due]
    exact waiting'.restore _
  refine ⟨Snapshot.length_encode _, rfl, settled, m'.restore (m.restore s).snapshot, ?_, same, ?_,
    s.dueRestored, restored.events, again.events⟩
  · exact load_eq_ok_iff.2 ⟨_, settled.decode_encode, rfl⟩
  · rw [save, same]
    rfl

/-- A stream with nothing in its range: cursors outside of their buffers, a thirty-first of
February, a minute counter of thirty-two bits and a tick long past. -/
def strayed : Snapshot where
  now := 5000
  due := some 7
  chip :=
    { bus := 0xFFFF
      session := { inputBit := 21, inputPos := 3, outputBit := 8, outputPos := 900 }
      registers :=
        { Registers.cleared with
          calendar := ⟨0x23, 0x02, 0x31, 0x07, 0x7F, 0x60, 0x0A⟩
          minuteCount := 0xFFFFFFFF }
      oscillator := { remainder := Int32.minValue } }

/-- The strayed stream, with a tail that does not belong to it, becomes a normal form. -/
theorem Reachable.load_settles_strayed :
    let m := ofConfig {}
    let data := Savestate.encode strayed.fields ++ [0x2A]
    ∃ loaded, m.load data = .ok loaded ∧ loaded.scheduler.now ≠ Scheduler.never ∧
      loaded.save.length = 95 ∧ loaded.snapshot.Settled ∧
      loaded.chip.registers.calendar = ⟨0x23, 0x03, 0x01, 0x00, 0x40, 0x00, 0x00⟩ ∧
      loaded.scheduler.find? loaded.chip.tickHandle = some 5000 ∧
      ∃ again, loaded.load loaded.save = .ok again ∧ again.save = loaded.save := by
  intro m data
  have reached : Reachable m := .start {}
  have accepted : m.load data = .ok (m.restore strayed.clamped) :=
    load_eq_ok_iff.2 ⟨_, strayed.decode_encode [0x2A], rfl⟩
  have loadedReached : Reachable (m.restore strayed.clamped) := reached.load accepted
  obtain ⟨length, -, settled, again, loads, -, same, -⟩ :=
    Reachable.load_settles reached loadedReached accepted (by decide)
  exact ⟨_, accepted, by decide, length, settled, by decide +kernel, by decide +kernel, again,
    loads, same⟩

/-! ## The configuration -/

/-- The machine with another configuration. -/
def withConfig (config : Config) (m : Machine) : Machine := { m with config }

variable (config : Config)

theorem serveUpTo_withConfig (bound : Nat) (m : Machine) :
    (m.withConfig config).serveUpTo bound = (m.serveUpTo bound).withConfig config := by
  induction bound generalizing m with
  | zero => rfl
  | succ bound ih =>
    have same : (m.withConfig config).chip.serveDue? (m.withConfig config).scheduler =
        m.chip.serveDue? m.scheduler := rfl
    rw [serveUpTo, serveUpTo, same]
    cases m.chip.serveDue? m.scheduler with
    | none => rfl
    | some served => exact ih { m with chip := served.1, scheduler := served.2 }

theorem step_withConfig (stop : UInt64) (m : Machine) :
    (m.withConfig config).step stop = (m.step stop).withConfig config := by
  have waited : (m.withConfig config).wait stop = (m.wait stop).withConfig config := rfl
  rw [step_eq, step_eq, waited, serveAll, serveAll, serveUpTo_withConfig]
  rfl

theorem runTo_withConfig (stop : UInt64) (bound : Nat) (m : Machine) :
    (m.withConfig config).runTo stop bound = (m.runTo stop bound).withConfig config := by
  induction bound generalizing m with
  | zero => rfl
  | succ bound ih =>
    have same : (m.withConfig config).scheduler = m.scheduler := rfl
    rw [runTo, runTo, same, step_withConfig, ih]
    split <;> rfl

/-- Only a reset looks at the configuration. -/
theorem act_withConfig {a : Action} (other : a ≠ .reset) (m : Machine) :
    (m.withConfig config).act a = (m.act a).withConfig config := by
  cases a with
  | reset => exact absurd rfl other
  | run cycles => exact runTo_withConfig config _ _ m
  | write16 address w =>
    unfold act write16
    dsimp only
    split <;> rfl
  | write8 address b =>
    unfold act write8
    dsimp only
    split <;> rfl
  | setDateTime t => rfl
  | install r => rfl
  | setConsole console => rfl
  | load data =>
    unfold act load
    dsimp only
    cases Snapshot.decode data <;> rfl

theorem play_withConfig {actions : List Action} (others : .reset ∉ actions) (m : Machine) :
    (m.withConfig config).play actions = (m.play actions).withConfig config := by
  induction actions generalizing m with
  | nil => rfl
  | cons a actions ih =>
    obtain ⟨other, others⟩ := not_or.1 (mt List.mem_cons.2 others)
    have first := act_withConfig config (Ne.symm other) m
    change ((m.withConfig config).act a).play actions = _
    rw [first]
    exact ih others (m.act a)

/-! ## The past -/

/-- The answers that a machine gives to its user: what stands at any address, what it
saves and which streams it refuses, its date, its time, and what waits and until when. -/
structure SameAnswers (m m' : Machine) : Prop where
  read16 : ∀ address, m'.read16 address = m.read16 address
  read8 : ∀ address, m'.read8 address = m.read8 address
  save : m'.save = m.save
  refuses : ∀ data e, m'.load data = .error e ↔ m.load data = .error e
  registers : m'.chip.registers = m.chip.registers
  dateTime : m'.chip.dateTime = m.chip.dateTime
  now : m'.scheduler.now = m.scheduler.now
  pending : m'.scheduler.pending = m.scheduler.pending
  due : m'.scheduler.find? m'.chip.tickHandle = m.scheduler.find? m.chip.tickHandle
  nextDue : m'.scheduler.nextDue = m.scheduler.nextDue

theorem Alike.sameAnswers (h : Alike m m') : SameAnswers m m' := by
  obtain ⟨handle, chip⟩ := h.chip
  obtain ⟨due, waiting, waiting'⟩ := h.waiting
  have registers : m'.chip.registers = m.chip.registers := by rw [chip]; rfl
  refine ⟨h.read16, fun address ↦ ?_, h.save, fun data e ↦ ?_, registers, ?_, h.now, ?_, ?_, ?_⟩
  · rw [read8, read8, h.read16]
  · rw [load_eq_error_iff, load_eq_error_iff]
  · rw [Chip.dateTime, Chip.dateTime, registers]
  · rw [Scheduler.pending_eq, Scheduler.pending_eq, waiting.events, waiting'.events,
      List.length_map, List.length_map]
  · rw [waiting.find?, waiting'.find?]
  · rw [waiting.nextDue, waiting'.nextDue]

/-- No answer depends on the configuration. -/
theorem SameAnswers.of_withConfig (h : SameAnswers m (m'.withConfig config)) : SameAnswers m m' :=
  ⟨h.read16, h.read8, h.save, fun _ _ ↦ load_eq_error_iff.trans load_eq_error_iff.symm,
    h.registers, h.dateTime, h.now, h.pending, h.due, h.nextDue⟩

/-- Machines that have restored the same snapshot are alike, up to their configurations. -/
theorem alike_of_restore (h : Reachable m) (h' : Reachable m')
    (console : m'.chip.console = m.chip.console) (s : Snapshot) :
    Alike (m.restore s) ((m'.restore s).withConfig (m.restore s).config) := by
  obtain ⟨due, waiting⟩ := h.waiting
  obtain ⟨due', waiting'⟩ := h'.waiting
  have restored' : (m'.restore s).Waiting s.dueRestored := waiting'.restore s
  refine ⟨rfl, ⟨m'.chip.tickHandle, Chip.restore_of_console console s.chip⟩, ?_,
    s.dueRestored, waiting.restore s, ?_⟩
  · exact (now_restore s m').trans (now_restore s m).symm
  · cases eq : s.dueRestored with
    | none => rw [eq] at restored'; exact restored'
    | some due => rw [eq] at restored'; exact restored'

/-- A loaded state erases the past.  Two machines with the same console, whatever has been
done to either of them, accept the same streams, and once they have loaded one they give
the same answers for ever, as long as they are not reset: to every read, to every stream
that they are told to write or to load, and about their date, their time and the tick that
waits. -/
theorem Reachable.load_forgets (h : Reachable m) (h' : Reachable m')
    (console : m'.chip.console = m.chip.console) {data : List UInt8} {loaded : Machine}
    (accepted : m.load data = .ok loaded) :
    ∃ loaded', m'.load data = .ok loaded' ∧
      ∀ actions, .reset ∉ actions → SameAnswers (loaded.play actions) (loaded'.play actions) := by
  obtain ⟨s, decoded, rfl⟩ := load_eq_ok_iff.1 accepted
  refine ⟨m'.restore s, load_eq_ok_iff.2 ⟨s, decoded, rfl⟩, fun actions noReset ↦ ?_⟩
  have alike := (alike_of_restore h h' console s).play actions
  rw [play_withConfig _ noReset] at alike
  exact alike.sameAnswers.of_withConfig

/-- A console that has run for a second and one that has been reset, dated and told to send
its registers load the strayed stream and cannot be told apart any more. -/
theorem Reachable.load_forgets_strayed :
    let m := (ofConfig {}).play [.run 33513982]
    let m' := (ofConfig { boot := some ⟨2031, 7, 4, 15, 30, 0⟩ }).play
      [.reset, .setDateTime ⟨2000, 2, 29, 1, 2, 3⟩, .write16 chipAddress Wire.selected]
    ∃ loaded loaded', m.load (Savestate.encode strayed.fields) = .ok loaded ∧
      m'.load (Savestate.encode strayed.fields) = .ok loaded' ∧
      (loaded'.play [.run 5000, .write16 chipAddress 0x0004]).save =
        (loaded.play [.run 5000, .write16 chipAddress 0x0004]).save := by
  intro m m'
  have reached : Reachable m := (Reachable.start _).play _
  have reached' : Reachable m' := (Reachable.start _).play _
  have console : m'.chip.console = m.chip.console := by
    have ran (cycles : UInt64) : ((ofConfig {}).play [.run cycles]).chip.console = .ds :=
      (sameBus_run cycles (ofConfig {})).console
    rw [ran 33513982]
    decide +kernel
  have decoded := strayed.decode_encode []
  rw [List.append_nil] at decoded
  have accepted : m.load (Savestate.encode strayed.fields) = .ok (m.restore strayed.clamped) :=
    load_eq_ok_iff.2 ⟨_, decoded, rfl⟩
  obtain ⟨loaded', accepted', same⟩ := Reachable.load_forgets reached reached' console accepted
  exact ⟨_, loaded', accepted, accepted', (same _ (by decide)).save⟩

end Machine

end ClockChip
