import EntityRest.Effect.Action

/-! # Running actions

`runOn` of each way to build an action, as equations. `wp act Q env` says that `Q` holds of the
outcome of `act` and of the environment it leaves behind, whether it fails or not; `wp_bind` takes a
sequence apart. -/

namespace EntityRest

theorem exists_of_map_eq_ok {ε α β : Type} {r : Except ε α} {f : α → β} {b : β}
    (h : r.map f = .ok b) : ∃ a, r = .ok a ∧ f a = b := by
  cases r with
  | error e => cases h
  | ok a => cases h; exact ⟨a, rfl, rfl⟩

namespace Action

variable {ε δ α β : Type}

@[simp] theorem runOn_pure (a : α) (env : Env) : (pure a : Action ε α).runOn env = (.ok a, env) := rfl

theorem runOn_bind (act : Action ε α) (f : α → Action ε β) (env : Env) :
    (act >>= f).runOn env =
      match act.runOn env with
      | (.ok a, env') => (f a).runOn env'
      | (.error e, env') => (.error e, env') := by
  show (ExceptT.bindCont f (act.runOn env).1).run (act.runOn env).2 = _
  rcases act.runOn env with ⟨_ | _, env'⟩ <;> rfl

@[simp] theorem runOn_get (env : Env) : (get : Action ε Env).runOn env = (.ok env, env) := rfl

@[simp] theorem runOn_modify (f : Env → Env) (env : Env) :
    (modify f : Action ε PUnit).runOn env = (.ok ⟨⟩, f env) := rfl

@[simp] theorem runOn_attempt (act : Action ε α) (env : Env) :
    (act.attempt : Action δ (Except ε α)).runOn env = (.ok (act.runOn env).1, (act.runOn env).2) := rfl

theorem runOn_mapError (f : ε → δ) (act : Action ε α) (env : Env) :
    (act.mapError f).runOn env = ((act.runOn env).1.mapError f, (act.runOn env).2) := by
  show StateT.run (act.run >>= _) env =
    ((StateT.run act.run env).1.mapError f, (StateT.run act.run env).2)
  rw [StateT.run_bind]
  rcases StateT.run act.run env with ⟨_ | _, env'⟩ <;> rfl

section

variable {act : Action ε α} {env env' : Env}

/-- A sequence succeeds through both of its parts. -/
theorem runOn_bind_eq_ok {f : α → Action ε β} {b : β} (h : (act >>= f).runOn env = (.ok b, env')) :
    ∃ a env₁, act.runOn env = (.ok a, env₁) ∧ (f a).runOn env₁ = (.ok b, env') := by
  rw [runOn_bind] at h
  rcases hact : act.runOn env with ⟨e | a, env₁⟩ <;> rw [hact] at h
  · cases h
  · exact ⟨a, env₁, rfl, h⟩

/-- A sequence fails in its first part or in its second. -/
theorem runOn_bind_eq_error {f : α → Action ε β} {e : ε} (h : (act >>= f).runOn env = (.error e, env')) :
    act.runOn env = (.error e, env') ∨
      ∃ a env₁, act.runOn env = (.ok a, env₁) ∧ (f a).runOn env₁ = (.error e, env') := by
  rw [runOn_bind] at h
  rcases hact : act.runOn env with ⟨e' | a, env₁⟩ <;> rw [hact] at h
  · cases h; exact .inl rfl
  · exact .inr ⟨a, env₁, rfl, h⟩

theorem runOn_mapError_eq_ok {f : ε → δ} {a : α} (h : (act.mapError f).runOn env = (.ok a, env')) :
    act.runOn env = (.ok a, env') := by
  rw [runOn_mapError] at h
  rcases hact : act.runOn env with ⟨e | a', env₁⟩ <;> rw [hact] at h <;> cases h
  rfl

end

/-- `Q` holds of the outcome of `act` and of the environment that it leaves behind. -/
def wp (act : Action ε α) (Q : Except ε α → Env → Prop) (env : Env) : Prop :=
  Q (act.runOn env).1 (act.runOn env).2

section

variable {act : Action ε α} {Q : Except ε α → Env → Prop} {env : Env}

theorem wp_mono {P : Except ε α → Env → Prop} (h : wp act P env) (hPQ : ∀ r env', P r env' → Q r env') :
    wp act Q env :=
  hPQ _ _ h

@[simp] theorem wp_pure {a : α} : wp (pure a) Q env ↔ Q (.ok a) env := Iff.rfl

@[simp] theorem wp_ofExcept {r : Except ε α} : wp (ofExcept r) Q env ↔ Q r env := Iff.rfl

@[simp] theorem wp_get {Q : Except ε Env → Env → Prop} : wp get Q env ↔ Q (.ok env) env := Iff.rfl

@[simp] theorem wp_modify {Q : Except ε PUnit → Env → Prop} {f : Env → Env} :
    wp (modify f) Q env ↔ Q (.ok ⟨⟩) (f env) := Iff.rfl

@[simp] theorem wp_mapError {Q : Except δ α → Env → Prop} {f : ε → δ} :
    wp (act.mapError f) Q env ↔ wp act (fun r => Q (r.mapError f)) env := by
  rw [wp, runOn_mapError, wp]

theorem wp_bind {Q : Except ε β → Env → Prop} {f : α → Action ε β} :
    wp (act >>= f) Q env ↔
      wp act (fun r env' =>
        match r with
        | .ok a => wp (f a) Q env'
        | .error e => Q (.error e) env') env := by
  simp only [wp, runOn_bind]
  rcases act.runOn env with ⟨_ | _, env'⟩ <;> rfl

end

/-- The environment after `act` is the one before it. -/
def ReadOnly (act : Action ε α) : Prop := ∀ env, (act.runOn env).2 = env

section

variable {act : Action ε α}

theorem readOnly_pure (a : α) : (pure a : Action ε α).ReadOnly := fun _ => rfl

theorem readOnly_throw (e : ε) : (throw e : Action ε α).ReadOnly := fun _ => rfl

theorem readOnly_ofExcept (r : Except ε α) : (ofExcept r).ReadOnly := fun _ => rfl

theorem ReadOnly.mapError (h : act.ReadOnly) (f : ε → δ) : (act.mapError f).ReadOnly := fun env => by
  rw [runOn_mapError]; exact h env

theorem ReadOnly.bind {f : α → Action ε β} (h : act.ReadOnly) (hf : ∀ a, (f a).ReadOnly) :
    (act >>= f).ReadOnly := fun env => by
  rw [runOn_bind]
  rcases hact : act.runOn env with ⟨r, env'⟩
  obtain rfl : env' = env := by rw [← h env, hact]
  cases r with
  | error e => rfl
  | ok a => exact hf a _

/-- What holds of the environment after `act` holds of it after all that only reads. -/
theorem wp_bind_of_readOnly {P : Env → Prop} {f : α → Action ε β} {env : Env}
    (h : wp act (fun _ env' => P env') env) (hf : ∀ a, (f a).ReadOnly) :
    wp (act >>= f) (fun _ env' => P env') env := by
  refine wp_bind.2 (wp_mono h ?_)
  rintro (e | a) env' henv
  · exact henv
  · show P ((f a).runOn env').2
    rw [hf a env']; exact henv

end

end Action

end EntityRest
