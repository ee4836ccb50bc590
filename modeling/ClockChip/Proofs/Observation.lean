/-!
# What is seen along a run

A system takes one input after another, and a run of it is a fold over its inputs.  With each
of them something may be seen: an answer, a bit on a line, an access, a tick.  `seenAlong` is
all that has been seen when the last input is through.

A run is reasoned about from a step of it.  What is kept by every input, of the state and of
what has been seen so far, holds in the end (`seenAlong_induction`).  If a part of the state
undergoes at each input what is seen then and nothing else, it undergoes all that is seen
(`foldl_seenAlong`).
-/

namespace ClockChip

variable {σ α β γ : Type} {look : σ → α → List β} {step : σ → α → σ}

/-- What is seen while each of some inputs takes a state a step further. -/
def seenAlong (look : σ → α → List β) (step : σ → α → σ) : σ → List α → List β
  | _, [] => []
  | s, a :: as => look s a ++ seenAlong look step (step s a) as

theorem seenAlong_cons (s : σ) (a : α) (as : List α) :
    seenAlong look step s (a :: as) = look s a ++ seenAlong look step (step s a) as := rfl

theorem seenAlong_singleton (s : σ) (a : α) : seenAlong look step s [a] = look s a :=
  List.append_nil _

theorem seenAlong_append (s : σ) (as as' : List α) :
    seenAlong look step s (as ++ as') =
      seenAlong look step s as ++ seenAlong look step (as.foldl step s) as' := by
  induction as generalizing s with
  | nil => rfl
  | cons a as ih =>
    rw [List.cons_append, seenAlong_cons, ih, seenAlong_cons, List.append_assoc, List.foldl_cons]

/-- What every input keeps, of all that has been seen and of the state, holds in the end if it
holds when nothing has been seen. -/
theorem seenAlong_induction {motive : List β → σ → Prop} {s : σ} {as : List α}
    (start : motive [] s)
    (keeps : ∀ seen s, ∀ a ∈ as, motive seen s → motive (seen ++ look s a) (step s a)) :
    motive (seenAlong look step s as) (as.foldl step s) := by
  -- on the way there is something that has been seen already
  suffices later : ∀ seen s, motive seen s →
      motive (seen ++ seenAlong look step s as) (as.foldl step s) from later [] s start
  clear start
  induction as with
  | nil =>
    intro seen s holds
    rw [seenAlong, List.append_nil]
    exact holds
  | cons a as ih =>
    intro seen s holds
    rw [seenAlong_cons, ← List.append_assoc, List.foldl_cons]
    exact ih (fun seen s b mem ↦ keeps seen s b (List.mem_cons_of_mem a mem)) _ _
      (keeps seen s a List.mem_cons_self holds)

/-- A part of the state that undergoes at each input what is seen then undergoes all that is
seen. -/
theorem foldl_seenAlong (part : σ → γ) {undergo : γ → β → γ}
    (one : ∀ s a, part (step s a) = (look s a).foldl undergo (part s)) (s : σ) (as : List α) :
    part (as.foldl step s) = (seenAlong look step s as).foldl undergo (part s) := by
  refine seenAlong_induction (motive := fun seen s' ↦ part s' = seen.foldl undergo (part s)) rfl ?_
  intro seen s' a _ same
  rw [one, same, List.foldl_append]

end ClockChip
