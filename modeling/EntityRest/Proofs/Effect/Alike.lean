import EntityRest.Http.Message
import EntityRest.Proofs.Effect.Action

/-! # Runs that differ in hidden messages only

Two actions are alike if they come to related values in the same way, or fail with errors that production does
not tell apart. The relation goes through sequences (`Alike.bind`), because a failure ends both of them. It does
not go through `attempt`: an action that looks at an error it has caught can tell two messages apart. -/

namespace EntityRest

/-! ### Hidden errors -/

/-- The errors whose texts production keeps to itself: internal ones, whether they are raised as such or come from
a driver that is out of order, from a driver that lacks an ability, or from a bare text. -/
inductive ApiError.Hidden : ApiError → Prop
  | internal (message : String) : Hidden (.internal message)
  | backend (message : String) : Hidden (DriverError.backend message).toApiError
  | unsupported (capability : String) : Hidden (DriverError.unsupported capability).toApiError
  | text (message : String) : Hidden (Failure.text message).toApiError

/-- The same error, or two hidden ones. -/
def ApiError.Alike (e e' : ApiError) : Prop := e = e' ∨ e.Hidden ∧ e'.Hidden

/-- Errors of a driver that requests fail with alike. -/
def DriverError.Alike (e e' : DriverError) : Prop := e.toApiError.Alike e'.toApiError

theorem ApiError.Hidden.eq_internal {e : ApiError} (h : e.Hidden) : ∃ message, e = .internal message := by
  cases h <;> exact ⟨_, rfl⟩

theorem ApiError.Alike.refl (e : ApiError) : e.Alike e := .inl rfl

theorem DriverError.Alike.refl (e : DriverError) : e.Alike e := ApiError.Alike.refl _

theorem ApiError.Alike.ofError_eq {e e' : ApiError} (h : e.Alike e') :
    Response.ofError true e = Response.ofError true e' := by
  rcases h with rfl | ⟨h, h'⟩
  · rfl
  · obtain ⟨m, rfl⟩ := h.eq_internal
    obtain ⟨n, rfl⟩ := h'.eq_internal
    rfl

/-! ### Actions -/

/-- Two runs end alike: both well, with related values and in one environment, or both with related errors,
whatever they leave behind. -/
inductive Outcome.Alike {ε α β : Type} (E : ε → ε → Prop) (R : α → β → Prop) :
    Except ε α × Env → Except ε β × Env → Prop
  | ok {a : α} {b : β} {env : Env} (h : R a b) : Outcome.Alike E R (.ok a, env) (.ok b, env)
  | error {e e' : ε} {env env' : Env} (h : E e e') : Outcome.Alike E R (.error e, env) (.error e', env')

namespace Action

variable {ε δ α β γ : Type} {E : ε → ε → Prop} {R : α → β → Prop}

/-- In every environment two actions end alike. -/
def Alike (E : ε → ε → Prop) (R : α → β → Prop) (act : Action ε α) (act' : Action ε β) : Prop :=
  ∀ env, Outcome.Alike E R (act.runOn env) (act'.runOn env)

theorem Alike.pure {a : α} {b : β} (h : R a b) :
    Alike E R (Pure.pure a : Action ε α) (Pure.pure b : Action ε β) := fun _ => .ok h

theorem Alike.refl {R : α → α → Prop} (hE : ∀ e, E e e) (hR : ∀ a, R a a) (act : Action ε α) :
    Alike E R act act := fun env => by
  rcases act.runOn env with ⟨e | a, env'⟩
  · exact .error (hE e)
  · exact .ok (hR a)

theorem Alike.mono {S : α → β → Prop} {act : Action ε α} {act' : Action ε β} (h : Alike E R act act')
    (hRS : ∀ a b, R a b → S a b) : Alike E S act act' := fun env => by
  have h := h env
  generalize act.runOn env = r, act'.runOn env = r' at h ⊢
  cases h with
  | ok hR => exact .ok (hRS _ _ hR)
  | error hE => exact .error hE

theorem Alike.bind {γ' : Type} {S : γ → γ' → Prop} {act : Action ε α} {act' : Action ε β} {f : α → Action ε γ}
    {f' : β → Action ε γ'} (h : Alike E R act act') (hf : ∀ a b, R a b → Alike E S (f a) (f' b)) :
    Alike E S (act >>= f) (act' >>= f') := fun env => by
  rw [runOn_bind, runOn_bind]
  have h := h env
  generalize act.runOn env = r, act'.runOn env = r' at h ⊢
  cases h with
  | ok hR => exact hf _ _ hR _
  | error hE => exact .error hE

theorem Alike.bind_eq {γ' : Type} {S : γ → γ' → Prop} {act act' : Action ε α} {f : α → Action ε γ}
    {f' : α → Action ε γ'} (h : Alike E Eq act act') (hf : ∀ a, Alike E S (f a) (f' a)) :
    Alike E S (act >>= f) (act' >>= f') :=
  h.bind fun a _ hab => hab ▸ hf a

theorem Alike.mapError {D : δ → δ → Prop} {f : ε → δ} {act : Action ε α} {act' : Action ε β}
    (h : Alike E R act act') (hf : ∀ e e', E e e' → D (f e) (f e')) :
    Alike D R (act.mapError f) (act'.mapError f) := fun env => by
  rw [runOn_mapError, runOn_mapError]
  have h := h env
  generalize act.runOn env = r, act'.runOn env = r' at h ⊢
  cases h with
  | ok hR => exact .ok hR
  | error hE => exact .error (hf _ _ hE)

theorem alike_self (act : Action ApiError α) : Alike ApiError.Alike Eq act act :=
  .refl ApiError.Alike.refl (fun _ => rfl) act

end Action

end EntityRest
