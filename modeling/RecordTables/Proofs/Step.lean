import RecordTables.Step

/-!
# Running steps

`Step.Answers step s x s'`: run on the state `s`, the step answers `x` and leaves the state `s'`.
`Step.Fails` is the same for a step that fails.  Steps one after the other answer if each does
(`Answers.bind`), and a sequence that fails does so in one of its steps (`fails_bind`).

Three properties of a step are put together step by step: that it preserves a property of the state
and answers what has another (`Step.Ensures`), that it leaves a part of the state as it was
(`Step.Keeps`), and that it fails only in certain ways (`Step.Blames`).  `Step.Yields` is about a step
from one state: what it leads to if it answers, and how it may fail.
-/

namespace RecordTables.Step

variable {σ ε ε' α β : Type} {s s' s'' : σ}

/-- What a step does: what it answers or why it fails, and the state that it leaves. -/
def outcome (step : Step σ ε α) (s : σ) : Except ε α × σ := step.run.run s

/-- The step answers `x` and leaves the state `s'`. -/
def Answers (step : Step σ ε α) (s : σ) (x : α) (s' : σ) : Prop := step.outcome s = (.ok x, s')

/-- The step fails with `e` and leaves the state `s'`. -/
def Fails (step : Step σ ε α) (s : σ) (e : ε) (s' : σ) : Prop := step.outcome s = (.error e, s')

/-- A step answers or fails. -/
theorem answers_or_fails (step : Step σ ε α) (s : σ) :
    (∃ x s', step.Answers s x s') ∨ ∃ e s', step.Fails s e s' := by
  unfold Answers Fails
  match step.outcome s with
  | (.ok x, s') => exact Or.inl ⟨x, s', rfl⟩
  | (.error e, s') => exact Or.inr ⟨e, s', rfl⟩

/-- A step that does not fail answers. -/
theorem exists_answers {step : Step σ ε α} (h : (step.outcome s).1.toOption.isSome = true) :
    ∃ x, step.Answers s x (step.outcome s).2 := by
  unfold Answers
  match step.outcome s, h with
  | (.ok x, s'), _ => exact ⟨x, rfl⟩

theorem answers_pure (s : σ) (x : α) : Answers (ε := ε) (pure x) s x s := rfl

/-! ### One step after the other -/

theorem outcome_bind (step : Step σ ε α) (next : α → Step σ ε β) (s : σ) :
    (step >>= next).outcome s =
      match step.outcome s with
      | (.ok x, s') => (next x).outcome s'
      | (.error e, s') => (.error e, s') := by
  show (match step.outcome s with
    | (r, s') => (ExceptT.bindCont next r).run s') = _
  match step.outcome s with
  | (.ok x, s') => rfl
  | (.error e, s') => rfl

/-- A sequence answers if and only if its steps do. -/
theorem answers_bind {step : Step σ ε α} {next : α → Step σ ε β} {y : β} :
    (step >>= next).Answers s y s'' ↔ ∃ x s', step.Answers s x s' ∧ (next x).Answers s' y s'' := by
  unfold Answers
  rw [outcome_bind]
  match step.outcome s with
  | (.ok x, t) => simp [and_assoc]
  | (.error e, t) => simp

theorem Answers.bind {step : Step σ ε α} {next : α → Step σ ε β} {x : α} {y : β}
    (h : step.Answers s x s') (hnext : (next x).Answers s' y s'') :
    (step >>= next).Answers s y s'' :=
  answers_bind.2 ⟨x, s', h, hnext⟩

/-- A sequence fails in its first step or in the others. -/
theorem fails_bind {step : Step σ ε α} {next : α → Step σ ε β} {e : ε} :
    (step >>= next).Fails s e s'' ↔
      step.Fails s e s'' ∨ ∃ x s', step.Answers s x s' ∧ (next x).Fails s' e s'' := by
  unfold Fails Answers
  rw [outcome_bind]
  match step.outcome s with
  | (.ok x, t) => simp [and_assoc]
  | (.error e', t) => simp

/-! ### Failures told in another way -/

theorem outcome_mapError (f : ε → ε') (step : Step σ ε α) (s : σ) :
    (mapError f step).outcome s = ((step.outcome s).1.mapError f, (step.outcome s).2) :=
  rfl

theorem answers_mapError {f : ε → ε'} {step : Step σ ε α} {x : α} :
    (mapError f step).Answers s x s' ↔ step.Answers s x s' := by
  unfold Answers
  rw [outcome_mapError]
  match step.outcome s with
  | (.ok y, t) =>
    show ((.ok y, t) : Except ε' α × σ) = _ ↔ _
    simp
  | (.error e, t) =>
    show ((.error (f e), t) : Except ε' α × σ) = _ ↔ _
    simp

theorem fails_mapError {f : ε → ε'} {step : Step σ ε α} {e' : ε'} :
    (mapError f step).Fails s e' s' ↔ ∃ e, step.Fails s e s' ∧ f e = e' := by
  unfold Fails
  rw [outcome_mapError]
  match step.outcome s with
  | (.ok y, t) =>
    show ((.ok y, t) : Except ε' α × σ) = _ ↔ _
    simp
  | (.error e, t) =>
    show ((.error (f e), t) : Except ε' α × σ) = _ ↔ _
    simp only [Prod.mk.injEq, Except.error.injEq]
    constructor
    · rintro ⟨rfl, rfl⟩
      exact ⟨e, ⟨rfl, rfl⟩, rfl⟩
    · rintro ⟨_, ⟨rfl, rfl⟩, rfl⟩
      exact ⟨rfl, rfl⟩

/-! ### Simple steps -/

theorem answers_get_bind {next : σ → Step σ ε β} {y : β} :
    ((get : Step σ ε σ) >>= next).Answers s y s' ↔ (next s).Answers s y s' :=
  Iff.rfl

theorem fails_get_bind {next : σ → Step σ ε β} {e : ε} :
    ((get : Step σ ε σ) >>= next).Fails s e s' ↔ (next s).Fails s e s' :=
  Iff.rfl

theorem answers_pure_iff {x y : α} :
    (pure x : Step σ ε α).Answers s y s' ↔ y = x ∧ s' = s := by
  unfold Answers
  show ((.ok x, s) : Except ε α × σ) = (.ok y, s') ↔ _
  simp [eq_comm]

theorem not_fails_get {e : ε} : ¬(get : Step σ ε σ).Fails s e s' := by
  intro h
  cases (congrArg Prod.fst h : (Except.ok s : Except ε σ) = .error e)

theorem not_fails_pure {x : α} {e : ε} : ¬(pure x : Step σ ε α).Fails s e s' := by
  intro h
  cases (congrArg Prod.fst h : (Except.ok x : Except ε α) = .error e)

theorem not_answers_throw {e : ε} {x : α} : ¬(throw e : Step σ ε α).Answers s x s' := by
  intro h
  cases (congrArg Prod.fst h : (Except.error e : Except ε α) = .ok x)

theorem answers_modify {g : σ → σ} :
    (modify g : Step σ ε Unit).Answers s () s' ↔ s' = g s := by
  unfold Answers
  show ((.ok (), g s) : Except ε Unit × σ) = (.ok (), s') ↔ _
  simp [eq_comm]

theorem fails_throw {e e' : ε} : (throw e : Step σ ε α).Fails s e' s' ↔ e' = e ∧ s' = s := by
  unfold Fails
  show ((.error e, s) : Except ε α × σ) = (.error e', s') ↔ _
  simp [eq_comm]

theorem outcome_change (fault : ε) (f : σ → Option σ) (s : σ) :
    (change fault f).outcome s =
      match f s with
      | some s' => (.ok (), s')
      | none => (.error fault, s) := by
  show (match f s with
    | some s' => (set s' : Step σ ε Unit)
    | none => throw fault).outcome s = _
  cases f s <;> rfl

theorem answers_change {fault : ε} {f : σ → Option σ} :
    (change fault f).Answers s () s' ↔ f s = some s' := by
  unfold Answers
  rw [outcome_change]
  cases f s <;> simp

theorem fails_change {fault e : ε} {f : σ → Option σ} :
    (change fault f).Fails s e s' ↔ f s = none ∧ e = fault ∧ s' = s := by
  unfold Fails
  rw [outcome_change]
  cases f s <;> simp [eq_comm]

theorem fails_ofOption {fault e : ε} {x? : Option α} :
    (ofOption fault x?).Fails s e s' ↔ x? = none ∧ e = fault ∧ s' = s := by
  cases x? with
  | none => rw [ofOption, fails_throw]; simp
  | some x => simp [ofOption, not_fails_pure]

theorem answers_lift {r : Except ε α} {x : α} :
    (liftM r : Step σ ε α).Answers s x s' ↔ r = .ok x ∧ s' = s := by
  cases r with
  | ok y =>
    show (pure y : Step σ ε α).Answers s x s' ↔ _
    rw [answers_pure_iff]
    simp [eq_comm]
  | error e =>
    show (throw e : Step σ ε α).Answers s x s' ↔ _
    simp [not_answers_throw]

theorem fails_lift {r : Except ε α} {e : ε} :
    (liftM r : Step σ ε α).Fails s e s' ↔ r = .error e ∧ s' = s := by
  cases r with
  | ok y =>
    show (pure y : Step σ ε α).Fails s e s' ↔ _
    simp [not_fails_pure]
  | error e' =>
    show (throw e' : Step σ ε α).Fails s e s' ↔ _
    rw [fails_throw]
    simp [eq_comm]

/-! ### Steps on a part of the state -/

section Within

variable {τ : Type} {get : σ → τ} {set : σ → τ → σ} {step : Step τ ε α}

theorem outcome_within (s : σ) :
    (within get set step).outcome s =
      ((step.outcome (get s)).1, set s (step.outcome (get s)).2) :=
  rfl

theorem answers_within {x : α} :
    (within get set step).Answers s x s' ↔ ∃ t, step.Answers (get s) x t ∧ set s t = s' := by
  unfold Answers
  rw [outcome_within, Prod.ext_iff]
  constructor
  · rintro ⟨hx, hs⟩
    exact ⟨_, Prod.ext hx rfl, hs⟩
  · rintro ⟨t, ht, hs⟩
    rw [ht]
    exact ⟨rfl, hs⟩

theorem fails_within {e : ε} :
    (within get set step).Fails s e s' ↔ ∃ t, step.Fails (get s) e t ∧ set s t = s' := by
  unfold Fails
  rw [outcome_within, Prod.ext_iff]
  constructor
  · rintro ⟨he, hs⟩
    exact ⟨_, Prod.ext he rfl, hs⟩
  · rintro ⟨t, ht, hs⟩
    rw [ht]
    exact ⟨rfl, hs⟩

end Within

/-! ### Failures that are caught -/

theorem outcome_tryCatch (step : Step σ ε α) (handler : ε → Step σ ε α) (s : σ) :
    (tryCatch step handler).outcome s =
      match step.outcome s with
      | (.ok x, s') => (.ok x, s')
      | (.error e, s') => (handler e).outcome s' := by
  show (ExceptT.tryCatch step handler).run.run s = _
  unfold ExceptT.tryCatch
  rw [ExceptT.run_mk, StateT.run_bind]
  show (step.outcome s >>= _ : Id (Except ε α × σ)) = _
  match step.outcome s with
  | (.ok x, s') => rfl
  | (.error e, s') => rfl

/-- If the handler answers nothing, what answers is the step. -/
theorem answers_tryCatch {step : Step σ ε α} {handler : ε → Step σ ε α} {x : α}
    (hhandler : ∀ e t, ¬(handler e).Answers t x s') :
    (tryCatch step handler).Answers s x s' ↔ step.Answers s x s' := by
  unfold Answers at hhandler ⊢
  rw [outcome_tryCatch]
  match step.outcome s with
  | (.ok y, t) => rfl
  | (.error e, t) => simp [hhandler e t]

/-! ### What a step ensures -/

/-- Run on a state with `P`, the step leaves a state with `P`, and `Q` holds of what it answers. -/
def Ensures (P : σ → Prop) (step : Step σ ε α) (Q : α → Prop) : Prop :=
  ∀ s, P s → P (step.outcome s).2 ∧ ∀ x, (step.outcome s).1 = .ok x → Q x

section Ensures

variable {P : σ → Prop} {Q : α → Prop} {R : β → Prop} {step : Step σ ε α}
  {next : α → Step σ ε β}

theorem Ensures.answers (h : step.Ensures P Q) (hs : P s) {x : α}
    (hanswers : step.Answers s x s') : P s' ∧ Q x := by
  have hafter := h s hs
  rw [hanswers] at hafter
  exact ⟨hafter.1, hafter.2 x rfl⟩

theorem ensures_pure {x : α} (h : Q x) : (pure x : Step σ ε α).Ensures P Q :=
  fun _ hs => ⟨hs, fun _ hy => Except.ok.inj hy ▸ h⟩

theorem ensures_throw (e : ε) : (throw e : Step σ ε α).Ensures P Q :=
  fun _ hs => ⟨hs, fun _ hx => nomatch hx⟩

/-- What is known of the state is known of what is read of it. -/
theorem ensures_get : (get : Step σ ε σ).Ensures P P :=
  fun _ hs => ⟨hs, fun _ hx => Except.ok.inj hx ▸ hs⟩

theorem ensures_modify {g : σ → σ} (h : ∀ s, P s → P (g s)) :
    (modify g : Step σ ε Unit).Ensures P fun _ => True :=
  fun s hs => ⟨h s hs, fun _ _ => trivial⟩

theorem ensures_change {fault : ε} {g : σ → Option σ} (h : ∀ s s', g s = some s' → P s → P s') :
    (change fault g).Ensures P fun _ => True := by
  intro s hs
  rw [outcome_change]
  cases hg : g s with
  | none => exact ⟨hs, fun _ _ => trivial⟩
  | some s' => exact ⟨h s s' hg hs, fun _ _ => trivial⟩

theorem ensures_ofOption {fault : ε} {x? : Option α} (h : ∀ x, x? = some x → Q x) :
    (ofOption fault x? : Step σ ε α).Ensures P Q := by
  cases x? with
  | none => exact ensures_throw fault
  | some x => exact ensures_pure (h x rfl)

theorem ensures_lift {r : Except ε α} (h : ∀ x, r = .ok x → Q x) :
    (liftM r : Step σ ε α).Ensures P Q := by
  cases r with
  | ok x => exact ensures_pure (h x rfl)
  | error e => exact ensures_throw e

/-- A sequence ensures what its last step does. -/
theorem Ensures.bind (h : step.Ensures P Q) (hnext : ∀ x, Q x → (next x).Ensures P R) :
    (step >>= next).Ensures P R := by
  intro s hs
  rw [outcome_bind]
  obtain ⟨hstate, hanswer⟩ := h s hs
  match hstep : step.outcome s with
  | (.ok x, s') =>
    rw [hstep] at hstate hanswer
    exact hnext x (hanswer x rfl) s' hstate
  | (.error e, s') =>
    rw [hstep] at hstate
    exact ⟨hstate, fun _ hy => nomatch hy⟩

theorem Ensures.mapError (h : step.Ensures P Q) (g : ε → ε') : (mapError g step).Ensures P Q := by
  intro s hs
  rw [outcome_mapError]
  refine (h s hs).imp_right fun hanswer x hx => hanswer x ?_
  match hstep : (step.outcome s).1 with
  | .ok y =>
    rw [hstep] at hx
    exact congrArg Except.ok (Except.ok.inj hx)
  | .error e =>
    rw [hstep] at hx
    cases hx

theorem Ensures.within {τ : Type} {get : σ → τ} {set : σ → τ → σ} {step : Step τ ε α}
    {P' : τ → Prop} (hget : ∀ s, P s → P' (get s)) (hset : ∀ s t, P s → P' t → P (set s t))
    (h : step.Ensures P' Q) : (within get set step).Ensures P Q := by
  intro s hs
  rw [outcome_within]
  exact (h (get s) (hget s hs)).imp_left (hset s _ hs)

theorem Ensures.tryCatch {handler : ε → Step σ ε α} (h : step.Ensures P Q)
    (hhandler : ∀ e, (handler e).Ensures P Q) : (tryCatch step handler).Ensures P Q := by
  intro s hs
  rw [outcome_tryCatch]
  have hafter := h s hs
  match hstep : step.outcome s with
  | (.ok x, s') =>
    rw [hstep] at hafter
    exact hafter
  | (.error e, s') =>
    rw [hstep] at hafter
    exact hhandler e s' hafter.1

end Ensures

/-! ### What a step leaves as it was -/

/-- Whatever the step does, `f` of the state stays the same. -/
def Keeps {τ : Type} (f : σ → τ) (step : Step σ ε α) : Prop := ∀ s, f (step.outcome s).2 = f s

section Keeps

variable {τ : Type} {f : σ → τ} {step : Step σ ε α} {next : α → Step σ ε β}

/-- To leave something as it was is to ensure that it has whatever value it had. -/
theorem keeps_iff_ensures :
    step.Keeps f ↔ ∀ v, step.Ensures (fun s => f s = v) fun _ => True := by
  constructor
  · intro h v s hs
    exact ⟨(h s).trans hs, fun _ _ => trivial⟩
  · intro h s
    exact (h (f s) s rfl).1

theorem Keeps.ensures (h : step.Keeps f) (P : τ → Prop) :
    step.Ensures (fun s => P (f s)) fun _ => True := by
  intro s hs
  refine ⟨?_, fun _ _ => trivial⟩
  show P (f (step.outcome s).2)
  rw [h s]
  exact hs

theorem Keeps.answers (h : step.Keeps f) {x : α} (hanswers : step.Answers s x s') : f s' = f s := by
  rw [← h s, hanswers]

theorem Keeps.fails (h : step.Keeps f) {e : ε} (hfails : step.Fails s e s') : f s' = f s := by
  rw [← h s, hfails]

theorem keeps_pure (x : α) : (pure x : Step σ ε α).Keeps f := fun _ => rfl

theorem keeps_throw (e : ε) : (throw e : Step σ ε α).Keeps f := fun _ => rfl

theorem keeps_get : (get : Step σ ε σ).Keeps f := fun _ => rfl

theorem keeps_modify {g : σ → σ} (h : ∀ s, f (g s) = f s) : (modify g : Step σ ε Unit).Keeps f := h

theorem Keeps.bind (h : step.Keeps f) (hnext : ∀ x, (next x).Keeps f) :
    (step >>= next).Keeps f :=
  keeps_iff_ensures.2 fun v =>
    (keeps_iff_ensures.1 h v).bind fun x _ => keeps_iff_ensures.1 (hnext x) v

/-- After a step that changes nothing, one that keeps something does. -/
theorem Keeps.of_bind {x : α} {y : β} (hstep : step.Answers s x s) (hnext : (next x).Keeps f)
    (h : (step >>= next).Answers s y s') : f s' = f s := by
  obtain ⟨x', t, hx', hrest⟩ := answers_bind.1 h
  obtain ⟨hx, rfl⟩ := Prod.mk.inj (hstep.symm.trans hx')
  obtain rfl := Except.ok.inj hx
  exact hnext.answers hrest

theorem Keeps.comp {ρ : Type} (h : step.Keeps f) (g : τ → ρ) : step.Keeps fun s => g (f s) :=
  fun s => congrArg g (h s)

theorem keeps_lift (r : Except ε α) : (liftM r : Step σ ε α).Keeps f :=
  keeps_iff_ensures.2 fun _ => ensures_lift fun _ _ => trivial

theorem Keeps.mapError (h : step.Keeps f) (g : ε → ε') : (mapError g step).Keeps f :=
  keeps_iff_ensures.2 fun v => (keeps_iff_ensures.1 h v).mapError g

/-- What a step and its handler keep is kept if the failures of the step are caught. -/
theorem Keeps.tryCatch {handler : ε → Step σ ε α} (h : step.Keeps f)
    (hhandler : ∀ e, (handler e).Keeps f) : (tryCatch step handler).Keeps f :=
  keeps_iff_ensures.2 fun v =>
    (keeps_iff_ensures.1 h v).tryCatch fun e => keeps_iff_ensures.1 (hhandler e) v

theorem keeps_change {fault : ε} {g : σ → Option σ} (h : ∀ s s', g s = some s' → f s' = f s) :
    (change fault g).Keeps f :=
  keeps_iff_ensures.2 fun _ => ensures_change fun s s' hg hs => (h s s' hg).trans hs

theorem Keeps.within {ρ : Type} {get : σ → ρ} {set : σ → ρ → σ} {step : Step ρ ε α} {g : ρ → τ}
    (hget : ∀ s, f s = g (get s)) (hset : ∀ s t, f (set s t) = g t) (h : step.Keeps g) :
    (within get set step).Keeps f := by
  intro s
  rw [outcome_within, hset, hget]
  exact h (get s)

end Keeps

/-! ### How a step fails -/

/-- Whenever the step fails, it does so with a fault of some kind. -/
def Blames (P : ε → Prop) (step : Step σ ε α) : Prop := ∀ s e s', step.Fails s e s' → P e

section Blames

variable {P : ε → Prop} {step : Step σ ε α} {next : α → Step σ ε β}

theorem blames_pure (x : α) : (pure x : Step σ ε α).Blames P :=
  fun _ _ _ h => absurd h not_fails_pure

theorem blames_get : (get : Step σ ε σ).Blames P := fun _ _ _ h => absurd h not_fails_get

theorem blames_throw {e : ε} (h : P e) : (throw e : Step σ ε α).Blames P := by
  intro s e' s' hfails
  rw [(fails_throw.1 hfails).1]
  exact h

theorem blames_modify (g : σ → σ) : (modify g : Step σ ε Unit).Blames P := by
  intro s e s' h
  cases (congrArg Prod.fst h : (Except.ok () : Except ε Unit) = .error e)

theorem blames_change {fault : ε} (h : P fault) (g : σ → Option σ) :
    (change fault g).Blames P := by
  intro s e s' hfails
  rw [(fails_change.1 hfails).2.1]
  exact h

theorem Blames.bind (h : step.Blames P) (hnext : ∀ x, (next x).Blames P) :
    (step >>= next).Blames P := by
  intro s e s' hfails
  rcases fails_bind.1 hfails with hfails | ⟨x, t, -, hfails⟩
  · exact h s e s' hfails
  · exact hnext x t e s' hfails

theorem Blames.within {τ : Type} {get : σ → τ} {set : σ → τ → σ} {step : Step τ ε α}
    (h : step.Blames P) : (within get set step).Blames P := by
  intro s e s' hfails
  obtain ⟨t, hfails, -⟩ := fails_within.1 hfails
  exact h _ e t hfails

/-- A failure that is told again after the handler has cleared up. -/
theorem Blames.rethrow {clear : ε → Step σ ε Unit} (h : step.Blames P)
    (hclear : ∀ e, (clear e).Blames P) :
    (tryCatch step fun e => do clear e; throw e).Blames P := by
  intro s e s' hfails
  unfold Fails at hfails
  rw [outcome_tryCatch] at hfails
  match hstep : step.outcome s with
  | (.ok x, t) =>
    rw [hstep] at hfails
    cases congrArg Prod.fst hfails
  | (.error e', t) =>
    rw [hstep] at hfails
    exact ((hclear e').bind fun _ => blames_throw (h s e' t hstep)) t e s' hfails

end Blames

/-! ### What a step leads to -/

/-- From the state `s`, the step leads to what `Q` says of its answer and of the state afterwards, or
it fails with a fault of some kind. -/
structure Yields (step : Step σ ε α) (s : σ) (Q : α → σ → Prop) (P : ε → Prop) : Prop where
  answers : ∀ x s', step.Answers s x s' → Q x s'
  fails : ∀ e s', step.Fails s e s' → P e

section Yields

variable {Q : α → σ → Prop} {R : β → σ → Prop} {P : ε → Prop} {step : Step σ ε α}
  {next : α → Step σ ε β}

theorem yields_pure {x : α} (h : Q x s) : (pure x : Step σ ε α).Yields s Q P where
  answers := by
    intro y s' hy
    obtain ⟨rfl, rfl⟩ := answers_pure_iff.1 hy
    exact h
  fails := fun _ _ hfails => absurd hfails not_fails_pure

theorem yields_throw {e : ε} (h : P e) : (throw e : Step σ ε α).Yields s Q P where
  answers := fun _ _ hanswers => absurd hanswers not_answers_throw
  fails := fun _ _ hfails => (fails_throw.1 hfails).1 ▸ h

theorem yields_modify {g : σ → σ} {Q : Unit → σ → Prop} (h : Q () (g s)) :
    (modify g : Step σ ε Unit).Yields s Q P where
  answers := fun _ _ hanswers => (answers_modify.1 hanswers) ▸ h
  fails := blames_modify (P := P) g s

theorem yields_change {fault : ε} {f : σ → Option σ} {Q : Unit → σ → Prop}
    (hQ : ∀ s', f s = some s' → Q () s') (hP : P fault) : (change fault f).Yields s Q P where
  answers := fun _ s' hanswers => hQ s' (answers_change.1 hanswers)
  fails := fun e s' hfails => blames_change hP f s e s' hfails

theorem yields_lift {r : Except ε α} (hQ : ∀ x, r = .ok x → Q x s) (hP : ∀ e, r = .error e → P e) :
    (liftM r : Step σ ε α).Yields s Q P where
  answers := by
    intro x s' hanswers
    obtain ⟨hr, rfl⟩ := answers_lift.1 hanswers
    exact hQ x hr
  fails := fun e _ hfails => hP e (fails_lift.1 hfails).1

theorem yields_get_bind {next : σ → Step σ ε β} (h : (next s).Yields s R P) :
    ((get : Step σ ε σ) >>= next).Yields s R P :=
  ⟨h.answers, h.fails⟩

/-- A step that answers leads to what it answers. -/
theorem Answers.yields {x : α} (h : step.Answers s x s') (hQ : Q x s') : step.Yields s Q P where
  answers := by
    intro y t hy
    obtain ⟨hx, rfl⟩ := Prod.mk.inj (h.symm.trans hy)
    rw [← Except.ok.inj hx]
    exact hQ
  fails := fun _ _ hfails => nomatch (Prod.mk.inj (h.symm.trans hfails)).1

theorem Yields.bind (h : step.Yields s Q P) (hnext : ∀ x s', Q x s' → (next x).Yields s' R P) :
    (step >>= next).Yields s R P where
  answers := by
    intro y s'' hy
    obtain ⟨x, s', hstep, hrest⟩ := answers_bind.1 hy
    exact (hnext x s' (h.answers x s' hstep)).answers y s'' hrest
  fails := by
    intro e s'' hfails
    rcases fails_bind.1 hfails with hfails | ⟨x, s', hstep, hrest⟩
    · exact h.fails e s'' hfails
    · exact (hnext x s' (h.answers x s' hstep)).fails e s'' hrest

/-- A step after one that answers. -/
theorem Answers.bind_yields {x : α} (h : step.Answers s x s')
    (hnext : (next x).Yields s' R P) : (step >>= next).Yields s R P :=
  (h.yields (Q := fun y t => y = x ∧ t = s') ⟨rfl, rfl⟩).bind fun _ _ hafter => by
    rw [hafter.1, hafter.2]
    exact hnext

theorem Yields.mapError {f : ε → ε'} {P' : ε' → Prop} (h : step.Yields s Q P)
    (hP : ∀ e, P e → P' (f e)) : (mapError f step).Yields s Q P' where
  answers := fun x s' hanswers => h.answers x s' (answers_mapError.1 hanswers)
  fails := by
    intro e' s' hfails
    obtain ⟨e, he, rfl⟩ := fails_mapError.1 hfails
    exact hP e (h.fails e s' he)

theorem Yields.mono {Q' : α → σ → Prop} (h : step.Yields s Q P) (hQ : ∀ x s', Q x s' → Q' x s') :
    step.Yields s Q' P where
  answers := fun x s' hanswers => hQ x s' (h.answers x s' hanswers)
  fails := h.fails

theorem Yields.weaken {P' : ε → Prop} (h : step.Yields s Q P) (hP : ∀ e, P e → P' e) :
    step.Yields s Q P' where
  answers := h.answers
  fails := fun e s' hfails => hP e (h.fails e s' hfails)

/-- A step that cannot fail answers. -/
theorem Yields.exists (h : step.Yields s Q fun _ => False) : ∃ x s', step.Answers s x s' ∧ Q x s' := by
  rcases answers_or_fails step s with ⟨x, s', hanswers⟩ | ⟨e, s', hfails⟩
  · exact ⟨x, s', hanswers, h.answers x s' hanswers⟩
  · exact absurd hfails (h.fails e s')

end Yields

end RecordTables.Step
