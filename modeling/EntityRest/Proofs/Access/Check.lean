import EntityRest.Access.Check

/-! # When a check of rules passes

A check passes if and only if every rule holds; if not, the first rule that does not hold decides
about the denial. -/

namespace EntityRest.Access

variable {e : Entity} {op : Operation} {ctx : RuleContext}

/-- Every rule of an operation holds; an operation without a rule list has none that could fail. -/
def Allows (e : Entity) (op : Operation) (ctx : RuleContext) : Prop :=
  ∀ rules, e.rulesFor op = some rules → ∀ rule ∈ rules, rule.evaluate e ctx = .ok true

theorem checkAll_eq_ok_iff {rules : List Rule} :
    checkAll e ctx rules = .ok () ↔ ∀ rule ∈ rules, rule.evaluate e ctx = .ok true := by
  induction rules with
  | nil => simp [checkAll]
  | cons rule rules ih =>
    unfold checkAll
    rw [List.forall_mem_cons, ← ih]
    rcases rule.evaluate e ctx with message | _ | _ <;> simp

theorem check_eq_ok_iff : check e op ctx = .ok () ↔ Allows e op ctx := by
  unfold check Allows
  cases e.rulesFor op with
  | none => simp
  | some rules => simpa using checkAll_eq_ok_iff

/-- The first rule that does not hold denies: as a missing user or as a refusal, and with its own text
if it gave one. -/
def Denies (e : Entity) (op : Operation) (ctx : RuleContext) (err : ApiError) : Prop :=
  ∃ before rule after message, e.rulesFor op = some (before ++ rule :: after) ∧
    (∀ r ∈ before, r.evaluate e ctx = .ok true) ∧ rule.evaluate e ctx ≠ .ok true ∧
    (∀ own, rule.evaluate e ctx = .error own → message = own) ∧
    err = match ctx.user with
      | none => .unauthorized message
      | some _ => .forbidden message

theorem toApiError_denial (user : Option User) (text : Option String) :
    ∃ message, (∀ own, text = some own → message = own) ∧
      (denial user text).toApiError = match user with
        | none => .unauthorized message
        | some _ => .forbidden message := by
  cases user with
  | none => exact ⟨text.getD _, fun own h => by rw [h]; rfl, rfl⟩
  | some u => exact ⟨text.getD _, fun own h => by rw [h]; rfl, rfl⟩

/-- A failed check splits the rules at the first that does not hold. -/
theorem checkAll_eq_error {rules : List Rule} {d : Denial} (h : checkAll e ctx rules = .error d) :
    ∃ before rule after text, rules = before ++ rule :: after ∧
      (∀ r ∈ before, r.evaluate e ctx = .ok true) ∧ rule.evaluate e ctx ≠ .ok true ∧
      (∀ own, rule.evaluate e ctx = .error own → text = some own) ∧ d = denial ctx.user text := by
  induction rules with
  | nil => cases h
  | cons rule rules ih =>
    unfold checkAll at h
    rcases heval : rule.evaluate e ctx with own | _ | _ <;> rw [heval] at h <;> dsimp only at h
    · cases h
      exact ⟨[], rule, rules, some own, rfl, by simp, by simp [heval], by simp [heval], rfl⟩
    · cases h
      exact ⟨[], rule, rules, none, rfl, by simp, by simp [heval], by simp [heval], rfl⟩
    · obtain ⟨before, failing, after, text, rfl, hbefore, hfailing⟩ := ih h
      exact ⟨rule :: before, failing, after, text, rfl, List.forall_mem_cons.2 ⟨heval, hbefore⟩,
        hfailing⟩

theorem denies_of_check {d : Denial} (h : check e op ctx = .error d) :
    Denies e op ctx d.toApiError := by
  unfold check at h
  cases hrules : e.rulesFor op with
  | none => rw [hrules] at h; cases h
  | some rules =>
    rw [hrules] at h
    obtain ⟨before, rule, after, text, rfl, hbefore, hrule, htext, rfl⟩ := checkAll_eq_error h
    obtain ⟨message, hmessage, herr⟩ := toApiError_denial ctx.user text
    exact ⟨before, rule, after, message, hrules, hbefore, hrule,
      fun own hown => hmessage own (htext own hown), herr⟩

end EntityRest.Access
