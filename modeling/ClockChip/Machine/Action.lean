import ClockChip.Machine.Snapshot

/-!
# What can happen to a machine

A machine is switched on, and from then on it is reset, runs, is written to and
is given a date, registers or a saved state.  The machines that come about in
this way are the reachable ones.  Reading does not change a machine and is not
among its actions.
-/

namespace ClockChip

namespace Machine

/-- Something that changes a machine. -/
inductive Action where
  | reset
  | run (cycles : UInt64)
  | write16 (address : UInt32) (w : Word)
  | write8 (address : UInt32) (b : UInt8)
  | setDateTime (t : DateTime)
  | install (r : Registers)
  | setConsole (console : Console)
  | load (data : List UInt8)
deriving DecidableEq, Repr

/-- The machine after an action.  A stream that is refused changes nothing. -/
def act (m : Machine) : Action → Machine
  | .reset => m.reset
  | .run cycles => m.run cycles
  | .write16 address w => m.write16 address w
  | .write8 address b => m.write8 address b
  | .setDateTime t => { m with chip := m.chip.setDateTime t }
  | .install r => { m with chip := m.chip.install r }
  | .setConsole console => { m with chip := { m.chip with console } }
  | .load data => (m.load data).toOption.getD m

/-- The machine after some actions. -/
def play (m : Machine) (actions : List Action) : Machine := actions.foldl act m

theorem play_append (m : Machine) (actions actions' : List Action) :
    m.play (actions ++ actions') = (m.play actions).play actions' :=
  List.foldl_append

/-- A machine that some actions lead to. -/
inductive Reachable : Machine → Prop where
  | start (config : Config) : Reachable (ofConfig config)
  | act {m : Machine} (h : Reachable m) (a : Action) : Reachable (m.act a)

theorem Reachable.play {m : Machine} (h : Reachable m) (actions : List Action) :
    Reachable (m.play actions) := by
  induction actions generalizing m with
  | nil => exact h
  | cons a actions ih => exact ih (h.act a)

/-- A machine into which a stream has been loaded is reached by that. -/
theorem Reachable.load {m m' : Machine} (h : Reachable m) {data : List UInt8}
    (loads : m.load data = .ok m') : Reachable m' := by
  have acted : Reachable ((m.load data).toOption.getD m) := h.act (.load data)
  rw [loads] at acted
  exact acted

theorem reachable_iff {m : Machine} :
    Reachable m ↔ ∃ config actions, m = (ofConfig config).play actions := by
  constructor
  · intro h
    induction h with
    | start config => exact ⟨config, [], rfl⟩
    | act _ a ih =>
      obtain ⟨config, actions, rfl⟩ := ih
      exact ⟨config, actions ++ [a], by simp [Machine.play]⟩
  · rintro ⟨config, actions, rfl⟩
    exact (Reachable.start config).play actions

end Machine

end ClockChip
