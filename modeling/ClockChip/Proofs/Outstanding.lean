import ClockChip.Proofs.Arriving
import ClockChip.Proofs.Accepting
import Mathlib.Data.List.Induction

/-!
# The tick that waits

Everything that changes a machine either lets its tick go on, starts it anew or restores
another one (`act_cases`).  So in every machine that has come about at most one event waits,
the next tick of the chip's own registration, and it is not in the past
(`Reachable.punctual`).  From this follows that every run arrives (`Reachable.run_arrives`),
after any restored state.

As long as no sum of times overflows this is so up to the end of time, and no tick waits at
all only if the last thing that was restored says so (`play_outstanding`).
-/

namespace ClockChip

/-! ## The times in a stream -/

open Savestate in
theorem Savestate.Read.word64_of_le {r : Reader} (fits : r.offset + 8 ≤ r.data.length) :
    Read.word64 r =
      .ok (UInt64.ofNat (LittleEndian.decode ((r.data.drop r.offset).take 8))) (r.skip 8) := by
  have number : Read.number 8 r =
      .ok (LittleEndian.decode ((r.data.drop r.offset).take 8)) (r.skip 8) := by
    rw [Read.number, Read.bind_of_ok (Read.bytes_of_le fits)]
    rfl
  rw [Read.word64, Read.bind_of_ok number]
  rfl

namespace Machine

namespace Snapshot

open Savestate

/-- The word of sixty-four bits at an offset of a stream. -/
def wordAt (data : List UInt8) (offset : Nat) : UInt64 :=
  UInt64.ofNat (LittleEndian.decode ((data.drop offset).take 8))

/-- The time is the first word behind the tag of its section, and the due time the second. -/
theorem times_of_decode {data : List UInt8} {s : Snapshot} (decoded : decode data = .ok s) :
    s.now = wordAt data 10 ∧
      s.due = if wordAt data 18 = Scheduler.never then none else some (wordAt data 18) := by
  have fine : firstFault? stages data 0 = none := by
    cases first : firstFault? stages data 0 with
    | none => rfl
    | some fault =>
      rw [decode_of_fault first] at decoded
      cases decoded
  obtain ⟨enough, magic, version, scheduler, -⟩ := firstFault?_eq_none_iff.1 fine
  have six : 6 ≤ data.length := by omega
  have ten : 6 + 4 ≤ data.length := by omega
  have eighteen : 10 + 8 ≤ data.length := by omega
  have twentySix : 18 + 8 ≤ data.length := by omega
  obtain ⟨_, v, header⟩ : ∃ u v, Read.header { data } = .ok u ⟨data, 6, v⟩ :=
    follows_header.read (r := { data }) (firstFault?_header_eq_none_iff.2 ⟨six, magic, version⟩)
  obtain ⟨_, v', tag⟩ : ∃ u v', Read.tag sectionTag ⟨data, 6, v⟩ = .ok u ⟨data, 10, v'⟩ :=
    (follows_tag sectionTag).read (r := ⟨data, 6, v⟩)
      (firstFault?_exactly_eq_none_iff.2 ⟨⟨ten, scheduler⟩, rfl⟩)
  have now : Read.word64 ⟨data, 10, v'⟩ = .ok (wordAt data 10) ⟨data, 18, v'⟩ :=
    Read.word64_of_le eighteen
  have due : Read.word64 ⟨data, 18, v'⟩ = .ok (wordAt data 18) ⟨data, 26, v'⟩ :=
    Read.word64_of_le twentySix
  rw [decode, readFields, Read.bind_of_ok (within_of_ok none header),
    Read.bind_of_ok (within_of_ok _ tag), Read.bind_of_ok (within_of_ok none now),
    Read.bind_of_ok (within_of_ok none due)] at decoded
  cases chip : within (some .chip) Chip.Snapshot.readFields ⟨data, 26, v'⟩ with
  | ok c r =>
    rw [Read.bind_of_ok chip] at decoded
    obtain rfl := Except.ok.inj decoded
    exact ⟨rfl, rfl⟩
  | error e r =>
    rw [Read.bind_of_error chip] at decoded
    cases decoded

theorem due_eq_none_iff {data : List UInt8} {s : Snapshot} (decoded : decode data = .ok s) :
    s.due = none ↔ wordAt data 18 = Scheduler.never := by
  rw [(times_of_decode decoded).2]
  split
  · next never => exact iff_of_true rfl never
  · next other => exact iff_of_false nofun other

end Snapshot

variable {m m' : Machine} {stop : UInt64}

/-! ## What an action does to the tick -/

/-- Whether an action lets the ticks go on: it neither starts them anew nor restores others. -/
def Action.leavesTicks (a : Action) : Prop :=
  a ≠ .reset ∧ ∀ data s, a = .load data → Snapshot.decode data ≠ .ok s

theorem Action.leavesTicks_of_ne {a : Action} (noReset : a ≠ .reset)
    (noLoad : ∀ data, a ≠ .load data) : a.leavesTicks :=
  ⟨noReset, fun data _ loads ↦ absurd loads (noLoad data)⟩

/-- A stream that is refused changes nothing. -/
theorem act_load_of_error {data : List UInt8} {e : LoadError}
    (decoded : Snapshot.decode data = .error e) (m : Machine) : m.act (.load data) = m := by
  rw [act, load, decoded]
  rfl

/-- What an action can do to time: it lets it pass, starts it anew, restores another, or does
nothing to it. -/
theorem act_cases (m : Machine) (a : Action) :
    (∃ cycles, a = .run cycles) ∨ a = .reset ∨
      (∃ data s, a = .load data ∧ Snapshot.decode data = .ok s ∧ m.act a = m.restore s) ∨
      (a.leavesTicks ∧ SameTime m (m.act a)) := by
  have wrote (w : Word) : SameTime m { m with chip := m.chip.write w } :=
    ⟨rfl, m.chip.oscillator_write w, m.chip.tickHandle_write w⟩
  cases a with
  | run cycles => exact .inl ⟨cycles, rfl⟩
  | reset => exact .inr (.inl rfl)
  | load data =>
    cases decoded : Snapshot.decode data with
    | ok s =>
      refine .inr (.inr (.inl ⟨data, s, rfl, decoded, ?_⟩))
      rw [act, load, decoded]
      rfl
    | error e =>
      have leaves : (Action.load data).leavesTicks := by
        refine ⟨by simp, ?_⟩
        rintro _ s ⟨⟩ ok
        rw [decoded] at ok
        cases ok
      rw [act_load_of_error decoded]
      exact .inr (.inr (.inr ⟨leaves, .refl m⟩))
  | write16 address w =>
    exact .inr (.inr (.inr ⟨Action.leavesTicks_of_ne (by simp) (by simp),
      write16_of (.refl m) wrote address w⟩))
  | write8 address b =>
    exact .inr (.inr (.inr ⟨Action.leavesTicks_of_ne (by simp) (by simp),
      write8_of (.refl m) wrote address b⟩))
  | _ =>
    exact .inr (.inr (.inr ⟨Action.leavesTicks_of_ne (by simp) (by simp), rfl, rfl, rfl⟩))

/-- What waits is a matter of the scheduler and the registration. -/
theorem Waiting.sameTime {due : Option UInt64} (h : m.Waiting due) (same : SameTime m m') :
    m'.Waiting due := by
  cases due with
  | none =>
    change m'.scheduler.queue = {}
    rw [same.scheduler]
    exact h
  | some due =>
    change m'.scheduler.queue = .single ⟨due, m'.chip.tickHandle⟩
    rw [same.scheduler, same.tickHandle]
    exact h

theorem Punctual.sameTime (h : m.Punctual) (same : SameTime m m') : m'.Punctual := by
  obtain ⟨due, waiting, punctual⟩ := h
  exact ⟨due, waiting.sameTime same, by rw [same.scheduler]; exact punctual⟩

theorem punctual_reset (m : Machine) : m.reset.Punctual := by
  obtain ⟨due, pending, -⟩ := (upToDate_reset m).pending
  exact ⟨some due, pending, fun d _ ↦ UInt64.le_iff_toNat_le.2 (Nat.zero_le d.toNat)⟩

/-- A restored tick is not in the past, even if it was saved so. -/
theorem Waiting.punctual_restore {due : Option UInt64} (h : m.Waiting due) (s : Snapshot) :
    (m.restore s).Punctual := by
  refine ⟨s.dueRestored, h.restore s, ?_⟩
  intro d restored
  obtain ⟨saved, -, rfl⟩ := Option.map_eq_some_iff.1 restored
  rw [now_restore]
  split
  · next le =>
    rw [UInt64.add_comm, UInt64.sub_add_cancel]
    exact le
  · rw [UInt64.add_zero]
    exact UInt64.le_refl _

/-- In a machine that has come about in any way the next tick is not in the past, unless the
end of time is near. -/
theorem Reachable.punctual (h : Reachable m) (inTime : m.InTime) : m.Punctual := by
  induction h with
  | start config => exact punctual_reset _
  | @act m h a ih =>
    rcases m.act_cases a with ⟨cycles, rfl⟩ | rfl | ⟨data, s, rfl, -, eq⟩ | ⟨-, same⟩
    · exact h.alike.punctual_runTo _ ih inTime
    · exact punctual_reset m
    · obtain ⟨due, waiting⟩ := h.waiting
      rw [eq]
      exact waiting.punctual_restore s
    · rw [InTime, same.scheduler] at inTime
      exact (ih inTime).sameTime same

/-! ## Every run arrives -/

/-- Whatever state has been restored, a run that stays away from the end of time comes to an
end: the loop without a bound has an end, and it ends in the machine that is computed.  In no
turn of it does time go back; the run ends when it should, and if it takes any time at all,
then nothing that is due is left. -/
theorem Reachable.run_arrives (h : Reachable m) {cycles : UInt64}
    (fits : m.scheduler.now.toNat + cycles.toNat + 65536 < UInt64.size) :
    let stop := m.scheduler.now + cycles
    let after := m.run cycles
    (∃ heads, RunsTo stop heads m after ∧
      (∀ head ∈ heads, head.scheduler.now ≤ min head.scheduler.nextDue stop) ∧
      heads.Pairwise fun head head' ↦ head.scheduler.now ≤ head'.scheduler.now) ∧
    after.scheduler.now.toNat = m.scheduler.now.toNat + cycles.toNat ∧
    (0 < cycles → ∀ e ∈ after.scheduler.events, after.scheduler.now < e.due) := by
  intro stop after
  have punctual : m.Punctual := h.punctual (by rw [InTime]; omega)
  have fit : ∀ t ∈ m.sumsOfRun cycles, t < UInt64.size := by
    have sum : stop.toNat = m.scheduler.now.toNat + cycles.toNat := by
      rw [UInt64.toNat_add]
      exact Nat.mod_eq_of_lt (by rw [UInt64.size] at fits; omega)
    refine List.forall_mem_cons.2 ⟨by omega, fun t mem ↦ ?_⟩
    have bound : t < stop.toNat + 65536 := sumsTo_lt _ m t mem
    omega
  obtain ⟨⟨heads, arrives⟩, now, -, ahead⟩ := punctual.run fit
  refine ⟨⟨heads, arrives.runs, arrives.forth, (arrives.runs.pairwise arrives.forth).2⟩, now, ?_⟩
  intro some e waits
  obtain ⟨due, waiting, later⟩ := ahead some
  rw [waiting.events] at waits
  obtain ⟨d, mem, rfl⟩ := List.mem_map.1 waits
  exact later d (Option.mem_toList.1 mem)

/-- A stream whose tick is due at once and whose remainder is as far below nought as a word
goes. -/
def leaping : Snapshot where
  now := 100000
  due := some 100000
  chip :=
    { bus := 0
      session := {}
      registers := .cleared
      oscillator := { remainder := Int32.minValue } }

/-- A machine that has loaded it. -/
def leapt : Machine := (ofConfig {}).restore leaping

theorem reachable_leapt : Reachable leapt := by
  have loads : (ofConfig {}).load (Savestate.encode leaping.fields) = .ok leapt :=
    load_eq_ok_iff.2 ⟨leaping, leaping.decode_encode_alone, rfl⟩
  exact (Reachable.start {}).load loads

/-- Its first tick leads far into the past, so that it serves sixty-five at once. -/
theorem Reachable.run_arrives_leapt :
    leapt.scheduler.now.toNat + (1 : UInt64).toNat + 65536 < UInt64.size ∧
      (leapt.ticked 100000).scheduler.nextDue = 35486 ∧
      (leapt.ticksOfRun 1).length = 65 ∧
      (leapt.run 1).scheduler.now.toNat = 100001 ∧
      ∀ e ∈ (leapt.run 1).scheduler.events, (leapt.run 1).scheduler.now < e.due := by
  have fits : leapt.scheduler.now.toNat + (1 : UInt64).toNat + 65536 < UInt64.size := by
    decide +kernel
  obtain ⟨-, now, nothingDue⟩ := reachable_leapt.run_arrives fits
  exact ⟨fits, by decide +kernel, by decide +kernel, now, nothingDue (by decide)⟩

/-! ## Sums of times -/

/-- The sums of times that an action computes, but for those that cannot overflow. -/
def sumsOf (m : Machine) : Action → List Int
  | .run cycles => m.sumsOfRun cycles
  | _ => []

/-- The sums of times in the course of some actions. -/
def sumsOfPlay (m : Machine) (actions : List Action) : List Int := seenAlong sumsOf act m actions

theorem Punctual.act (h : m.Punctual) {a : Action} (fit : ∀ t ∈ m.sumsOf a, t < UInt64.size) :
    (m.act a).Punctual := by
  rcases m.act_cases a with ⟨cycles, rfl⟩ | rfl | ⟨data, s, rfl, -, eq⟩ | ⟨-, same⟩
  · obtain ⟨-, -, punctual, -⟩ := h.run fit
    exact punctual
  · exact punctual_reset m
  · obtain ⟨due, waiting⟩ := h.waits
    rw [eq]
    exact waiting.punctual_restore s
  · exact h.sameTime same

/-- If no sum overflows, the next tick is never in the past. -/
theorem Punctual.play {actions : List Action} (h : m.Punctual)
    (fit : ∀ t ∈ m.sumsOfPlay actions, t < UInt64.size) : (m.play actions).Punctual := by
  induction actions generalizing m with
  | nil => exact h
  | cons a actions ih =>
    obtain ⟨now, later⟩ := List.forall_mem_append.1 fit
    exact ih (h.act now) later

/-! ## Ticks that have been stopped -/

/-- A run neither starts nor stops the ticks. -/
theorem Waiting.serveUpTo {due : Option UInt64} (bound : Nat) (h : m.Waiting due) :
    ∃ due', (m.serveUpTo bound).Waiting due' ∧ (due' = none ↔ due = none) := by
  induction bound generalizing m due with
  | zero => exact ⟨due, h, .rfl⟩
  | succ bound ih =>
    cases due with
    | none =>
      rw [serveUpTo_idle h]
      exact ⟨none, h, .rfl⟩
    | some due =>
      have pending : m.Pending due := h
      rcases UInt64.lt_or_le m.scheduler.now due with lt | le
      · rw [serveUpTo_early pending lt]
        exact ⟨some due, h, .rfl⟩
      · rw [serveUpTo_due pending le]
        have next : (m.ticked due).Waiting (some (due + m.delay)) := pending_ticked due m
        obtain ⟨due', waiting, same⟩ := ih next
        exact ⟨due', waiting, same.trans ⟨nofun, nofun⟩⟩

theorem Waiting.runTo {due : Option UInt64} (bound : Nat) (h : m.Waiting due) :
    ∃ due', (m.runTo stop bound).Waiting due' ∧ (due' = none ↔ due = none) := by
  induction bound generalizing m due with
  | zero => exact ⟨due, h, .rfl⟩
  | succ bound ih =>
    rw [Machine.runTo]
    split
    · obtain ⟨due', waiting, same⟩ := (h.wait stop).serveUpTo _
      obtain ⟨due'', waiting', same'⟩ := ih waiting
      exact ⟨due'', waiting', same'.trans same⟩
    · exact ⟨due, h, .rfl⟩

/-- The ticks have been stopped: since the last reset the last stream that was loaded gives the
latest time there is as the due time of its tick. -/
def Stopped (actions : List Action) : Prop :=
  ∃ before data after, actions = before ++ .load data :: after ∧
    (∃ s, Snapshot.decode data = .ok s) ∧ Snapshot.wordAt data 18 = Scheduler.never ∧
    ∀ a ∈ after, a.leavesTicks

theorem not_stopped_nil : ¬ Stopped [] := by
  rintro ⟨before, data, after, eq, -⟩
  cases before <;> cases eq

/-- The last action stops the ticks, or they have been stopped before and it leaves them. -/
theorem stopped_concat {actions : List Action} {a : Action} :
    Stopped (actions ++ [a]) ↔
      (∃ data, a = .load data ∧ (∃ s, Snapshot.decode data = .ok s) ∧
        Snapshot.wordAt data 18 = Scheduler.never) ∨
      a.leavesTicks ∧ Stopped actions := by
  constructor
  · rintro ⟨before, data, after, eq, accepted, never, left⟩
    rcases List.eq_nil_or_concat after with rfl | ⟨after, last, rfl⟩
    · obtain ⟨rfl, same⟩ := List.append_inj' eq rfl
      obtain ⟨rfl, -⟩ := List.cons.inj same
      exact .inl ⟨data, rfl, accepted, never⟩
    · rw [List.concat_eq_append, ← List.cons_append, ← List.append_assoc] at eq
      obtain ⟨rfl, same⟩ := List.append_inj' eq rfl
      obtain ⟨rfl, -⟩ := List.cons.inj same
      rw [List.concat_eq_append] at left
      obtain ⟨left, last⟩ := List.forall_mem_append.1 left
      exact .inr ⟨last _ (List.mem_singleton_self _), before, data, after, rfl, accepted, never,
        left⟩
  · rintro (⟨data, rfl, accepted, never⟩ |
      ⟨leaves, before, data, after, rfl, accepted, never, left⟩)
    · exact ⟨actions, data, [], rfl, accepted, never, List.forall_mem_nil _⟩
    · refine ⟨before, data, after ++ [a], ?_, accepted, never, ?_⟩
      · rw [List.append_assoc, List.cons_append]
      · exact List.forall_mem_append.2 ⟨left, List.forall_mem_singleton.2 leaves⟩

/-- What waits, and whether anything does. -/
theorem play_waits (config : Config) (actions : List Action) :
    ∃ due, ((ofConfig config).play actions).Waiting due ∧ (due = none ↔ Stopped actions) := by
  induction actions using List.reverseRecOn with
  | nil =>
    obtain ⟨due, pending, -⟩ := (upToDate_reset { chip := .powerOn config.console, config }).pending
    exact ⟨some due, pending, nofun, fun stopped ↦ absurd stopped not_stopped_nil⟩
  | append_singleton actions a ih =>
    obtain ⟨due, waiting, stopped⟩ := ih
    have last : (ofConfig config).play (actions ++ [a]) = ((ofConfig config).play actions).act a :=
      List.foldl_append
    rw [last, stopped_concat]
    rcases act_cases ((ofConfig config).play actions) a with
      ⟨cycles, rfl⟩ | rfl | ⟨data, s, rfl, decoded, eq⟩ | ⟨leaves, same⟩
    · obtain ⟨due', waiting', same⟩ := waiting.runTo (cycles.toNat + 1)
      have leaves : (Action.run cycles).leavesTicks := Action.leavesTicks_of_ne (by simp) (by simp)
      refine ⟨due', waiting', ?_⟩
      rw [same, stopped]
      refine ⟨fun h ↦ .inr ⟨leaves, h⟩, ?_⟩
      rintro (⟨_, ⟨⟩, -⟩ | ⟨-, h⟩)
      exact h
    · obtain ⟨due', pending, -⟩ := (upToDate_reset ((ofConfig config).play actions)).pending
      refine ⟨some due', pending, nofun, fun h ↦ ?_⟩
      rcases h with ⟨_, ⟨⟩, _⟩ | ⟨⟨noReset, -⟩, -⟩
      exact absurd rfl noReset
    · refine ⟨s.dueRestored, by rw [eq]; exact waiting.restore s, ?_⟩
      rw [Snapshot.dueRestored, Option.map_eq_none_iff, Snapshot.due_eq_none_iff decoded]
      constructor
      · intro never
        exact .inl ⟨data, rfl, ⟨s, decoded⟩, never⟩
      · rintro (⟨_, ⟨⟩, -, never⟩ | ⟨⟨-, refused⟩, -⟩)
        · exact never
        · exact absurd decoded (refused data s rfl)
    · refine ⟨due, waiting.sameTime same, ?_⟩
      rw [stopped]
      refine ⟨fun h ↦ .inr ⟨leaves, h⟩, ?_⟩
      rintro (⟨data, rfl, ⟨s, decoded⟩, -⟩ | ⟨-, h⟩)
      · exact absurd decoded (leaves.2 data s rfl)
      · exact h

/-! ## One tick -/

/-- Whatever has been done to a machine since it was switched on, as long as no sum of times
has overflowed, at most one event waits.  It is of the registration that the chip has now,
under which it is found, and it is not due before the present.  That none waits comes of one
thing only, a stream that has been loaded since the last reset, and after which no other one
has been loaded, with the latest time there is as its due time. -/
theorem play_outstanding (config : Config) (actions : List Action)
    (fit : ∀ t ∈ (ofConfig config).sumsOfPlay actions, t < UInt64.size) :
    let m := (ofConfig config).play actions
    ∃ due : Option UInt64,
      m.scheduler.events = due.toList.map (⟨·, m.chip.tickHandle⟩) ∧
      m.scheduler.find? m.chip.tickHandle = due ∧
      (∀ d, due = some d → m.scheduler.now ≤ d) ∧
      (due = none ↔ Stopped actions) := by
  intro m
  obtain ⟨due, waiting, stopped⟩ := play_waits config actions
  obtain ⟨due', waiting', punctual⟩ := (punctual_reset _).play fit
  have same : due' = due := waiting'.find?.symm.trans waiting.find?
  subst same
  exact ⟨due', waiting.events, waiting.find?, punctual, stopped⟩

/-- A stream whose tick is not scheduled. -/
def unscheduled : Snapshot := { leaping with due := none }

/-- After a run a stream without a tick is loaded and time goes on. -/
def withoutTick : List Action :=
  [.run 2000, .load (Savestate.encode unscheduled.fields), .run 50, .setConsole .dsi]

theorem play_outstanding_withoutTick :
    (ofConfig {}).sumsOfPlay withoutTick = [2000, 2045, 100050] ∧ Stopped withoutTick ∧
      ((ofConfig {}).play withoutTick).scheduler.events = [] := by
  have sums : (ofConfig {}).sumsOfPlay withoutTick = [2000, 2045, 100050] := by decide +kernel
  have fit : ∀ t ∈ (ofConfig {}).sumsOfPlay withoutTick, t < UInt64.size := by
    rw [sums]
    decide
  have decoded : Snapshot.decode (Savestate.encode unscheduled.fields) = .ok unscheduled :=
    unscheduled.decode_encode_alone
  have left : ∀ a ∈ [Action.run 50, .setConsole .dsi], a.leavesTicks := by
    simp [Action.leavesTicks]
  have last : Stopped withoutTick :=
    ⟨[.run 2000], _, [.run 50, .setConsole .dsi], rfl, ⟨unscheduled, decoded⟩, by decide +kernel,
      left⟩
  obtain ⟨due, events, -, -, stopped⟩ := play_outstanding {} withoutTick fit
  rw [stopped.2 last] at events
  exact ⟨sums, last, events⟩

end Machine

end ClockChip
