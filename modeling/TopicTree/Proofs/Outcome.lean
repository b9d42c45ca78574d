import TopicTree.Error

/-!
# Steps that can be refused

A row of steps each of which may be refused succeeds exactly when every step does. These laws take
such a row apart, so that no other proof unfolds the sequencing. Steps that write into a state may
be refused as well, and then the state is left as it was written so far; a row of them has changed
all or nothing if it is `settled`.
-/

namespace TopicTree

variable {ε α β : Type}

/-- Two steps succeed when the first does and the second does with what the first gave. -/
@[simp]
theorem bind_eq_ok {first : Except ε α} {next : α → Except ε β} {result : β} :
    (first >>= next) = .ok result ↔ ∃ value, first = .ok value ∧ next value = .ok result := by
  cases first with
  | error e => simp [bind, Except.bind]
  | ok value => simp [bind, Except.bind]

/-- A step that only answers. -/
theorem pure_def (value : α) : (pure value : Except ε α) = .ok value :=
  rfl

/-- A step that only answers succeeds with its answer. -/
@[simp]
theorem pure_eq_ok {value result : α} :
    (pure value : Except ε α) = .ok result ↔ value = result := by
  simp [pure, Except.pure]

/-- A step whose answer is changed succeeds when the step does. -/
@[simp]
theorem map_eq_ok {step : Except ε α} {change : α → β} {result : β} :
    step.map change = .ok result ↔ ∃ value, step = .ok value ∧ change value = result := by
  cases step <;> simp [Except.map]

/-- A step that is not refused has a result. -/
theorem exists_eq_ok {step : Except ε α} (h : step.isOk) : ∃ result, step = .ok result := by
  cases step with
  | error e => cases h
  | ok result => exact ⟨result, rfl⟩

/-- Nothing follows a refusal. -/
@[simp]
theorem error_bind (e : ε) (next : α → Except ε β) :
    ((.error e : Except ε α) >>= next) = .error e :=
  rfl

/-- What follows an answer goes on with it. -/
@[simp]
theorem ok_bind (value : α) (next : α → Except ε β) :
    ((.ok value : Except ε α) >>= next) = next value :=
  rfl

/-- A step behind a check succeeds when the check does not refuse it. -/
@[simp]
theorem check_eq_ok {refused : Prop} [Decidable refused] {e : ε} {step : Except ε α}
    {result : α} :
    (if refused then .error e else step) = .ok result ↔ ¬refused ∧ step = .ok result := by
  split <;> simp_all

/-- What is left when the error is forgotten is the result. -/
theorem toOption_eq_some {ε α : Type} {outcome : Except ε α} {result : α} :
    outcome.toOption = some result ↔ outcome = .ok result := by
  cases outcome <;> simp [Except.toOption]

/-! ## In place -/

section InPlace

variable {σ : Type}

/-- The outcome of something that changes all of a state or nothing: the answer and the new state,
or the refusal and the state as it was. -/
def settled (before : σ) : Except ε (α × σ) → EStateM.Result ε σ α
  | .ok (result, after) => .ok result after
  | .error e => .error e before

@[simp]
theorem settled_ok (before after : σ) (result : α) :
    settled before (.ok (result, after) : Except ε (α × σ)) = .ok result after :=
  rfl

@[simp]
theorem settled_error (before : σ) (e : ε) :
    settled before (.error e : Except ε (α × σ)) = .error e before :=
  rfl

/-- Takes over the outcome of something that writes nothing. -/
def ofExcept : Except ε α → EStateM ε σ α
  | .ok result => pure result
  | .error e => throw e

@[simp]
theorem run_ofExcept_ok (result : α) (state : σ) :
    (ofExcept (.ok result : Except ε α)).run state = .ok result state :=
  rfl

@[simp]
theorem run_ofExcept_error (e : ε) (state : σ) :
    (ofExcept (.error e : Except ε α)).run state = .error e state :=
  rfl

/-- Nothing follows a refusal, whatever would have been answered. -/
@[simp]
theorem run_throw (e : ε) (state : σ) : (throw e : EStateM ε σ α).run state = .error e state :=
  rfl

/-- A step that writes nothing may come before a row of steps that changes all or nothing. -/
theorem run_ofExcept_bind {step : Except ε α} {next : α → EStateM ε σ β}
    {outcome : α → Except ε (β × σ)} {state : σ}
    (h : ∀ value, step = .ok value → (next value).run state = settled state (outcome value)) :
    (ofExcept step >>= next).run state = settled state (step >>= outcome) := by
  cases step with
  | error e => rfl
  | ok value => exact h value rfl

/-- Steps that are never refused may come behind one that changes all or nothing. -/
theorem run_bind_of_settled {act : EStateM ε σ α} {next : α → EStateM ε σ β} {state : σ}
    {first : Except ε (α × σ)} (h : act.run state = settled state first) (last : α → σ → β × σ)
    (h' : ∀ value after, first = .ok (value, after) →
      (next value).run after = .ok (last value after).1 (last value after).2) :
    (act >>= next).run state
      = settled state (first.map fun (value, after) => last value after) := by
  rw [EStateM.run_bind, h]
  cases first with
  | error e => rfl
  | ok first => exact h' first.1 first.2 rfl

end InPlace

/-! ## Side by side -/

/-- Two rows of steps are refused together, or succeed with results that are related. -/
inductive Agree {γ : Type} (related : α → γ → Prop) : Except ε α → Except ε γ → Prop
  | error (e : ε) : Agree related (.error e) (.error e)
  | ok {left : α} {right : γ} (h : related left right) : Agree related (.ok left) (.ok right)

namespace Agree

variable {γ δ : Type} {related : α → γ → Prop} {later : β → δ → Prop}

/-- Steps that agree may be followed by steps that agree on what came of them. -/
protected theorem bind {left : Except ε α} {right : Except ε γ} {next : α → Except ε β}
    {next' : γ → Except ε δ} (h : Agree related left right)
    (h' : ∀ a c, related a c → Agree later (next a) (next' c)) :
    Agree later (left >>= next) (right >>= next') := by
  cases h with
  | error e => exact .error e
  | ok h => exact h' _ _ h

/-- The same step may come before steps that agree. -/
protected theorem after {step : Except ε γ} {next : γ → Except ε β} {next' : γ → Except ε δ}
    (h : ∀ value, step = .ok value → Agree later (next value) (next' value)) :
    Agree later (step >>= next) (step >>= next') := by
  cases step with
  | error e => exact .error e
  | ok value => exact h value rfl

/-- The same check may come before steps that agree. -/
protected theorem check {refused : Prop} [Decidable refused] {e : ε} {left : Except ε α}
    {right : Except ε γ} (h : Agree related left right) :
    Agree related (if refused then .error e else left) (if refused then .error e else right) := by
  split
  · exact .error e
  · exact h

/-- The results of steps that agree may be changed. -/
protected theorem map {left : Except ε α} {right : Except ε γ} {change : α → β} {change' : γ → δ}
    (h : Agree related left right) (h' : ∀ a c, related a c → later (change a) (change' c)) :
    Agree later (left.map change) (right.map change') := by
  cases h with
  | error e => exact .error e
  | ok h => exact .ok (h' _ _ h)

end Agree

end TopicTree
