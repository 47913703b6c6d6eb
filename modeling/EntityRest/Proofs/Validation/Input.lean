import EntityRest.Proofs.Json.Sorted
import EntityRest.Validation.Input
import Mathlib.Data.List.Basic

/-! # What validation lets through

The data of a valid document has values for client fields only; the owner key is none of them. Each value
is one that its field accepts. What a document is worth depends on these fields alone (`Agree.input_congr`).

`Checked` says what one key makes of what was found before it, and `checkFields_induction` carries this over
all keys. -/

namespace EntityRest.Validation

/-- Null is for optional fields, and any other value must pass the check of the field. -/
structure Accepts (d : FieldDef) (v : Json) : Prop where
  ofNull : v.isNull = true → d.optional = true
  ofValue : v.isNull = false → valueError? d v = none

/-- What one input key makes of what was found before it. -/
inductive Checked (op : Operation) (input : Fields) (v : ValidInput) (key : String) (d : FieldDef) :
    ValidInput → Prop
  | omitted (h : input.get? key = none) (hmay : mayOmit op d = true) : Checked op input v key d v
  | taken {value : Json} (h : input.get? key = some value) (haccepts : Accepts d value) :
    Checked op input v key d (v.addField key value)
  | refused {message : String} (hvalue : ∀ value, input.get? key = some value → ¬Accepts d value)
    (hmissing : input.get? key = none → mayOmit op d = false) :
    Checked op input v key d (v.addError key message)

theorem checked_checkField (op : Operation) (input : Fields) (v : ValidInput) (key : String)
    (d : FieldDef) : Checked op input v key d (checkField op input v key d) := by
  unfold checkField
  split
  · next hnone =>
    split
    · next hmay => exact .omitted hnone hmay
    · next hneeded => exact .refused (by simp [hnone]) fun _ => Bool.eq_false_iff.2 hneeded
  · next hnull =>
    split
    · next hoptional => exact .taken hnull ⟨fun _ => hoptional, nofun⟩
    · next hrequired =>
      refine .refused (fun value hvalue haccepts => ?_) (by simp [hnull])
      cases hnull.symm.trans hvalue
      exact hrequired (haccepts.ofNull rfl)
  · next value hne hvalue =>
    have hnull : value.isNull = false := by
      cases value with
      | null => exact absurd rfl hne
      | _ => rfl
    split
    · next hnone => exact .taken hvalue ⟨fun h => absurd h (by simp [hnull]), fun _ => hnone⟩
    · next message hsome =>
      refine .refused (fun value' hvalue' haccepts => ?_) (by simp [hvalue])
      cases hvalue.symm.trans hvalue'
      rw [haccepts.ofValue hnull] at hsome
      cases hsome

section

variable {e : Entity} {op : Operation} {body : Json} {data : Fields}

/-- What holds of nothing, and is kept by every client key, holds of what a document is worth. -/
theorem checkFields_induction {fields : Fields} {P : ValidInput → Prop} (hstart : P ⟨[], []⟩)
    (hstep : ∀ {v v' key d}, (key, d) ∈ clientFields e → Checked op fields v key d v' → P v → P v') :
    P (checkFields e op fields) :=
  List.foldlRecOn (motive := P) _ _ hstart fun v hv c hc =>
    hstep hc (checked_checkField op fields v c.1 c.2) hv

/-- The same for the data of any body; one that is no object has none. -/
theorem data_input_induction {P : Fields → Prop} (hstart : P [])
    (hstep : ∀ {data key d value}, (key, d) ∈ clientFields e → Accepts d value → P data →
      P (data.insert key value)) : P (input e op body).data := by
  unfold input
  split
  · refine checkFields_induction (P := fun v => P v.data) hstart fun hd hchecked hv => ?_
    cases hchecked with
    | omitted => exact hv
    | taken _ haccepts => exact hstep hd haccepts hv
    | refused => exact hv
  · exact hstart

theorem eq_of_toExcept (h : (input e op body).toExcept = .ok data) : data = (input e op body).data := by
  unfold ValidInput.toExcept at h
  split at h
  · cases h; rfl
  · cases h

theorem mem_clientFields {key : String} {d : FieldDef} :
    (key, d) ∈ clientFields e ↔ (key, d) ∈ e.inputFields ∧ e.ownerField ≠ some key := by
  rw [clientFields, List.mem_filter, decide_eq_true_iff, ne_comm]

/-- No document, valid or not, sets the owner key. -/
theorem contains_owner_input {k : String} (hk : e.ownerField = some k) (op : Operation) (body : Json) :
    (input e op body).data.contains k = false := by
  refine data_input_induction (P := fun data => data.contains k = false) rfl
    fun {data key d value} hd _ hdata => ?_
  have hne : k ≠ key := by
    rintro rfl
    exact (mem_clientFields.1 hd).2 hk
  simp [hne, hdata]

theorem contains_owner_of_toExcept {k : String} (hk : e.ownerField = some k)
    (h : (input e op body).toExcept = .ok data) : data.contains k = false :=
  eq_of_toExcept h ▸ contains_owner_input hk op body

/-- Every value of a valid document is one that the field of its key accepts. -/
theorem accepts_of_toExcept (h : (input e op body).toExcept = .ok data) {c : String × Json}
    (hc : c ∈ data) : ∃ d, (c.1, d) ∈ clientFields e ∧ Accepts d c.2 := by
  have hdata : ∀ c ∈ (input e op body).data, ∃ d, (c.1, d) ∈ clientFields e ∧ Accepts d c.2 := by
    refine data_input_induction
      (P := fun data => ∀ c ∈ data, ∃ d, (c.1, d) ∈ clientFields e ∧ Accepts d c.2)
      (fun _ hc => absurd hc List.not_mem_nil) fun hd haccepts hdata c hc => ?_
    rcases Fields.mem_insert hc with rfl | hc
    · exact ⟨_, hd, haccepts⟩
    · exact hdata c hc
  exact hdata c (eq_of_toExcept h ▸ hc)

theorem sorted_of_toExcept (h : (input e op body).toExcept = .ok data) : data.Sorted :=
  eq_of_toExcept h ▸ data_input_induction .nil fun _ _ hdata => hdata.insert _ _

/-! ### What a valid document holds -/

section Present

variable {fields : Fields} {v v' : ValidInput} {key : String} {d : FieldDef}

/-- A key never takes an error back, nor a value. -/
theorem Checked.keeps (h : Checked op fields v key d v') :
    (v'.errors = [] → v.errors = []) ∧ ∀ k, v.data.contains k = true → v'.data.contains k = true := by
  cases h with
  | omitted => exact ⟨id, fun _ => id⟩
  | taken => exact ⟨id, fun k hk => by simp [ValidInput.addField, hk]⟩
  | refused => exact ⟨fun hnone => absurd hnone (by simp [ValidInput.addError]), fun _ => id⟩

/-- A key that causes no error has a value from then on, or can do without. -/
theorem Checked.present (h : Checked op fields v key d v') (hvalid : v'.errors = []) :
    v'.data.contains key = true ∨ mayOmit op d = true := by
  cases h with
  | omitted _ hmay => exact .inr hmay
  | taken => exact .inl (by simp [ValidInput.addField])
  | refused => exact absurd hvalid (by simp [ValidInput.addError])

theorem foldl_checkField_present (clients : List (String × FieldDef)) (v : ValidInput)
    (hvalid : (clients.foldl (fun v (key, d) => checkField op fields v key d) v).errors = []) :
    v.errors = [] ∧ (∀ k, v.data.contains k = true →
        (clients.foldl (fun v (key, d) => checkField op fields v key d) v).data.contains k = true) ∧
      ∀ c ∈ clients, (clients.foldl (fun v (key, d) => checkField op fields v key d) v).data.contains c.1 =
        true ∨ mayOmit op c.2 = true := by
  induction clients generalizing v with
  | nil => exact ⟨hvalid, fun _ => id, fun _ hc => absurd hc List.not_mem_nil⟩
  | cons c clients ih =>
    obtain ⟨hrest, hkept, hall⟩ := ih _ hvalid
    have hchecked := checked_checkField op fields v c.1 c.2
    refine ⟨hchecked.keeps.1 hrest, fun k hk => hkept k (hchecked.keeps.2 k hk), fun c' hc' => ?_⟩
    rcases List.mem_cons.1 hc' with rfl | hc'
    · exact (hchecked.present hrest).imp_left (hkept _)
    · exact hall c' hc'

/-- The data of a valid document have a value under every client key, unless the key may be left out. -/
theorem contains_of_toExcept (h : (input e op body).toExcept = .ok data) (hd : (key, d) ∈ clientFields e) :
    data.contains key = true ∨ mayOmit op d = true := by
  obtain rfl := eq_of_toExcept h
  have hvalid : (input e op body).errors = [] := by
    unfold ValidInput.toExcept ValidInput.isValid at h
    split at h
    · next hnone => exact List.isEmpty_iff.1 hnone
    · cases h
  unfold input at hvalid ⊢
  split at hvalid
  · exact (foldl_checkField_present _ _ hvalid).2.2 _ hd
  · cases hvalid

end Present

/-! ### Documents that agree -/

/-- Two documents hold the same under every key that clients may set. -/
def Agree (e : Entity) (a b : Fields) : Prop := ∀ c ∈ clientFields e, a.get? c.1 = b.get? c.1

theorem Agree.insert {key : String} (hkey : ∀ d, (key, d) ∉ clientFields e) (a : Fields) (v : Json) :
    Agree e (a.insert key v) a := by
  rintro ⟨k, d⟩ hc
  have hne : k ≠ key := by rintro rfl; exact hkey d hc
  rw [Fields.get?_insert, if_neg hne]

theorem checkField_congr {a b : Fields} {key : String} (h : a.get? key = b.get? key) (op : Operation)
    (v : ValidInput) (d : FieldDef) : checkField op a v key d = checkField op b v key d := by
  rw [checkField, checkField, h]

theorem Agree.input_congr {a b : Fields} (h : Agree e a b) (op : Operation) :
    input e op (.obj a) = input e op (.obj b) :=
  List.foldl_ext _ _ _ fun v c hc => checkField_congr (h c hc) op v c.2

/-! ### Updates with accepted values -/

variable {fields : Fields} (h : ∀ c ∈ clientFields e, ∀ v, fields.get? c.1 = some v → Accepts c.2 v)
include h

/-- An update with values that their fields accept has no errors, and its data are among these values. -/
theorem input_update_of_accepts : (input e .update (.obj fields)).errors = [] ∧
    ∀ c ∈ (input e .update (.obj fields)).data, fields.get? c.1 = some c.2 := by
  refine checkFields_induction
    (P := fun v => v.errors = [] ∧ ∀ c ∈ v.data, fields.get? c.1 = some c.2)
    ⟨rfl, fun _ hc => absurd hc List.not_mem_nil⟩ fun {v v' key d} hd hchecked hv => ?_
  cases hchecked with
  | omitted => exact hv
  | taken hvalue =>
    refine ⟨hv.1, fun c hc => ?_⟩
    rcases Fields.mem_insert hc with rfl | hc
    · exact hvalue
    · exact hv.2 c hc
  | refused hvalue hmissing =>
    -- an update may leave everything out
    cases hget : fields.get? key with
    | none => exact absurd (hmissing hget) (by simp [mayOmit])
    | some value => exact absurd (h _ hd value hget) (hvalue value hget)

theorem toExcept_update_of_accepts :
    (input e .update (.obj fields)).toExcept = .ok (input e .update (.obj fields)).data := by
  rw [ValidInput.toExcept, ValidInput.isValid, (input_update_of_accepts h).1]
  rfl

end

end EntityRest.Validation
