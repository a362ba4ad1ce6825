import Mathlib.Data.List.Chain

/-!
# Logs of changes

A value is missing or present. It appears without an entry, and every later change appends
exactly one entry to a log, with what the value was and what it has become. The entries then form
a chain that leads from the first value to the last one, whatever makes the changes.
-/

namespace AlphaPing.Library.ChangeLog

variable {Row State : Type*} (previous current : Row → State)

/-- One step of a value and of its log. -/
inductive Logged (value : Option State) (log : List Row) : Option State → List Row → Prop
  | same : Logged value log value log
  | created (first : State) (hvalue : value = none) : Logged value log (some first) log
  | changed (row : Row) (hprevious : value = some (previous row))
    (hchange : previous row ≠ current row) : Logged value log (some (current row)) (log ++ [row])

/-- The entries lead from the first value to the last one. -/
structure Chained (first : Option State) (log : List Row) (value : Option State) : Prop where
  links : log.IsChain fun earlier later ↦ current earlier = previous later
  begins : ∀ state, first = some state → ∀ row ∈ log.head?, previous row = state
  ends : ∀ row ∈ log.getLast?, value = some (current row)
  silent : log = [] → first = none ∨ value = first

variable {previous current} {first value value' : Option State} {log log' base : List Row}

variable (previous current) in
theorem chained_nil (value : Option State) : Chained previous current value [] value where
  links := List.isChain_nil
  begins _ _ _ h := nomatch h
  ends _ h := nomatch h
  silent _ := .inr rfl

theorem Logged.suffix (h : Logged previous current value (base ++ log) value' log') :
    ∃ later, log' = base ++ later ∧ Logged previous current value log value' later := by
  cases h with
  | same => exact ⟨log, rfl, .same⟩
  | created first hvalue => exact ⟨log, rfl, .created first hvalue⟩
  | changed row hprevious hchange =>
    exact ⟨log ++ [row], List.append_assoc _ _ _, .changed row hprevious hchange⟩

/-- The last entry tells what the value is; without one it is the first value. -/
theorem Chained.state_of (h : Chained previous current first log value) {state : State}
    (hvalue : value = some state) :
    (∀ row ∈ log.getLast?, current row = state) ∧ (log = [] → first = none ∨ first = some state) := by
  refine ⟨fun row hrow ↦ ?_, fun hnil ↦ ?_⟩
  · exact Option.some.inj ((h.ends row hrow).symm.trans hvalue)
  · exact (h.silent hnil).imp_right fun hsame ↦ hsame.symm.trans hvalue

theorem Chained.eq_nil (h : Chained previous current first log value) (hvalue : value = none) :
    log = [] := by
  rcases List.eq_nil_or_concat log with hnil | ⟨earlier, last, rfl⟩
  · exact hnil
  · have hends := h.ends last (by simp)
    rw [hvalue] at hends
    cases hends

theorem Chained.logged (h : Chained previous current first log value)
    (hstep : Logged previous current value log value' log') :
    Chained previous current first log' value' := by
  cases hstep with
  | same => exact h
  | created state hvalue =>
    have hnil := h.eq_nil hvalue
    refine ⟨h.links, h.begins, fun row hrow ↦ ?_, fun _ ↦ ?_⟩
    · rw [hnil] at hrow
      cases hrow
    · exact .inl ((h.silent hnil).elim id fun hsame ↦ hsame.symm.trans hvalue)
  | changed row hprevious hchange =>
    obtain ⟨hlast, hfirst⟩ := h.state_of hprevious
    refine ⟨?_, fun state hstate head hhead ↦ ?_, fun last hend ↦ ?_, fun hnil ↦ ?_⟩
    · refine h.links.append (List.isChain_singleton row) fun last hend head hhead ↦ ?_
      rw [List.head?_cons, Option.mem_some_iff] at hhead
      rw [hlast last hend, hhead]
    · cases log with
      | nil =>
        rw [List.nil_append, List.head?_cons, Option.mem_some_iff] at hhead
        rw [← hhead]
        rcases hfirst rfl with hnone | hsome
        · rw [hstate] at hnone
          cases hnone
        · exact Option.some.inj (hsome.symm.trans hstate)
      | cons entry entries => exact h.begins state hstate head hhead
    · rw [List.getLast?_concat, Option.mem_some_iff] at hend
      rw [hend]
    · exact absurd hnil (by simp)

/-- Two steps of which the second changes nothing are one step. -/
theorem Logged.trans_same (h : Logged previous current value base value' log)
    {value'' : Option State} (hvalue : value'' = value') (hlog : log' = log) :
    Logged previous current value base value'' log' := by
  rw [hvalue, hlog]
  exact h

end AlphaPing.Library.ChangeLog
