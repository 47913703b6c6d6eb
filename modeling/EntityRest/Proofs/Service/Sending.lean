import EntityRest.Proofs.Http.Headers
import EntityRest.Proofs.Query.Equality
import EntityRest.Proofs.Text.Integer
import EntityRest.Service.Rest

/-! # What is sent of a response

The headers of a response are copied value by value behind the one that announces the body
(`valuesUnder_outgoing`). Nothing is lost or reordered, and no header is made up but that one. It is there
whenever there is a body, so a response that says itself what its body is gets a second header of that name
(`outgoing_faithful_iff`). -/

namespace EntityRest

/-! ### The text of a value -/

theorem Decimal.plain_ne_empty {d : Decimal} (h : d.exponent < 0) : d.plain ≠ "" := by
  intro hempty
  have hnil := congrArg String.toList hempty
  rw [Decimal.plain, String.toList_ofList, if_neg (Int.not_le.2 h)] at hnil
  split at hnil <;> simp at hnil

theorem Double.text_ne_empty (x : Double) : x.text ≠ "" := by
  have hsigned : ∀ text : String, text ≠ "" → x.signed text ≠ "" := by
    intro text htext
    unfold Double.signed
    split
    · simp
    · exact htext
  refine hsigned _ ?_
  split
  · split
    · next h => exact Decimal.plain_ne_empty h
    · simp
  · intro hempty
    have hnil := congrArg String.toList hempty
    simp [Decimal.scientific] at hnil

theorem Json.text_ne_empty (j : Json) : j.text ≠ "" := by
  cases j with
  | null => simp [Json.text]
  | bool b => cases b <;> simp [Json.text]
  | num n =>
    cases n with
    | int n =>
      intro hempty
      have hnil : (toString n).toList = [] := congrArg String.toList hempty
      cases n with
      | ofNat n =>
        rw [Text.toList_toString_ofNat] at hnil
        exact Nat.toDigits_ne_nil hnil
      | negSucc n =>
        rw [Text.toList_toString_negSucc] at hnil
        cases hnil
    | float x => exact x.text_ne_empty
  | str s => simp [Json.text, Json.quote]
  | arr items => simp [Json.text]
  | obj fields => simp [Json.text]

namespace Rest

variable {r : Response}

theorem hasBody_eq_true_iff : hasBody r = true ↔ r.status ≠ 204 ∧ r.body ≠ .null := by
  simp [hasBody, ← Json.isNull_eq_true_iff]

theorem hasBody_eq_false_iff : hasBody r = false ↔ r.status = 204 ∨ r.body = .null := by
  rw [← Bool.not_eq_true, hasBody_eq_true_iff]
  by_cases hstatus : r.status = 204 <;> simp [hstatus]

theorem body_outgoing_eq_empty_iff : (outgoing r).body = "" ↔ r.status = 204 ∨ r.body = .null := by
  rw [← hasBody_eq_false_iff]
  unfold outgoing
  dsimp only
  cases hasBody r <;> simp [Json.text_ne_empty]

/-- The values of a response stand behind the one that announces its body. -/
theorem valuesOf_outgoing (r : Response) (name : String) :
    (outgoing r).headers.valuesOf name =
      (if hasBody r = true ∧ Headers.nameKey name = "content-type" then ["application/json"] else []) ++
        r.headers.valuesOf name := by
  refine (Headers.valuesUnder_foldl_pairs _ r.headers (Headers.nameKey name)).trans ?_
  congr 1
  cases hasBody r with
  | false => rfl
  | true =>
    have hkey : Headers.nameKey "content-type" = "content-type" := by decide
    rw [if_pos rfl, Headers.valuesUnder, Headers.set, OrdMap.get?_insert, hkey]
    by_cases hname : Headers.nameKey name = "content-type"
    · rw [if_pos hname, if_pos ⟨rfl, hname⟩]
      rfl
    · rw [if_neg hname, if_neg (fun h => hname h.2)]
      rfl

theorem valuesOf_outgoing_of_ne {name : String} (h : Headers.nameKey name ≠ "content-type") :
    (outgoing r).headers.valuesOf name = r.headers.valuesOf name := by
  rw [valuesOf_outgoing, if_neg fun hname => h hname.2, List.nil_append]

theorem valuesOf_outgoing_contentType (r : Response) :
    (outgoing r).headers.valuesOf "content-type" =
      (if hasBody r = true then ["application/json"] else []) ++ r.headers.valuesOf "content-type" := by
  have hkey : Headers.nameKey "content-type" = "content-type" := by decide
  rw [valuesOf_outgoing, hkey]
  simp only [and_true]

/-- A response goes out as it is: with its status, with its body if it has one, and with the values that it has
for each name. A header that announces the body is added only if there is a body and the response does not say
itself what it is. -/
structure Faithful (r : Response) (out : Outgoing) : Prop where
  status : out.status = r.status
  empty_iff : out.body = "" ↔ r.status = 204 ∨ r.body = .null
  valuesOf : ∀ name, Headers.nameKey name ≠ "content-type" →
    out.headers.valuesOf name = r.headers.valuesOf name
  announced : r.status ≠ 204 → r.body ≠ .null → r.headers.valuesOf "content-type" = [] →
    out.headers.valuesOf "content-type" = ["application/json"]
  own : r.status = 204 ∨ r.body = .null ∨ r.headers.valuesOf "content-type" ≠ [] →
    out.headers.valuesOf "content-type" = r.headers.valuesOf "content-type"

/-- Every response goes out with its status, with its body if it has one, and with its values for every name but
one. Under that one it goes out as it should unless it has a body and says itself what that is: then a value that
is not its own comes before those that are. -/
theorem outgoing_faithful_iff (r : Response) :
    (Faithful r (outgoing r) ↔ r.status = 204 ∨ r.body = .null ∨ r.headers.valuesOf "content-type" = []) ∧
      (outgoing r).status = r.status ∧
      ((outgoing r).body = "" ↔ r.status = 204 ∨ r.body = .null) ∧
      (∀ name, Headers.nameKey name ≠ "content-type" →
        (outgoing r).headers.valuesOf name = r.headers.valuesOf name) ∧
      (r.status ≠ 204 → r.body ≠ .null →
        (outgoing r).body = r.body.text ∧
          (outgoing r).headers.valuesOf "content-type" =
            "application/json" :: r.headers.valuesOf "content-type") := by
  have hvalues := valuesOf_outgoing_contentType r
  refine ⟨⟨fun h => ?_, fun h => ?_⟩, rfl, body_outgoing_eq_empty_iff, fun _ => valuesOf_outgoing_of_ne,
    fun hstatus hbody => ?_⟩
  · cases hsome : hasBody r with
    | false => exact (hasBody_eq_false_iff.1 hsome).imp_right .inl
    | true =>
      rw [if_pos hsome] at hvalues
      cases hown : r.headers.valuesOf "content-type" with
      | nil => exact .inr (.inr rfl)
      | cons value more =>
        have hboth := h.own (.inr (.inr (by simp [hown])))
        -- the values would be those of the response with one more in front of them
        rw [hvalues] at hboth
        simpa using congrArg List.length hboth
  · refine ⟨rfl, body_outgoing_eq_empty_iff, fun _ => valuesOf_outgoing_of_ne, ?_, ?_⟩
    · intro hstatus hbody hown
      rw [hvalues, if_pos (hasBody_eq_true_iff.2 ⟨hstatus, hbody⟩), hown]
      rfl
    · intro hempty
      have hnone : hasBody r = false := by
        rw [hasBody_eq_false_iff]
        rcases hempty with hstatus | hbody | hown
        · exact .inl hstatus
        · exact .inr hbody
        · exact h.imp_right fun h => h.resolve_right hown
      rw [hvalues, hnone]
      rfl
  · have hsome : hasBody r = true := hasBody_eq_true_iff.2 ⟨hstatus, hbody⟩
    refine ⟨?_, by rw [hvalues, if_pos hsome]; rfl⟩
    unfold outgoing
    dsimp only
    rw [if_pos hsome]

/-- A page that a handler sends as plain text goes out as plain text and as JSON. -/
theorem outgoing_faithful_iff_plainText :
    let r : Response := { Response.ok (.str "hello") with
      headers := Headers.set ∅ "Content-Type" "text/plain" }
    ¬Faithful r (outgoing r) ∧
      (outgoing r).headers.valuesOf "content-type" = ["application/json", "text/plain"] ∧
      Faithful (Response.ok (.str "hello")) (outgoing (Response.ok (.str "hello"))) := by
  intro r
  have hown : r.headers.valuesOf "content-type" = ["text/plain"] := rfl
  obtain ⟨hfaithful, -, -, -, hvalues⟩ := outgoing_faithful_iff r
  refine ⟨fun h => ?_, ?_, (outgoing_faithful_iff _).1.2 (.inr (.inr rfl))⟩
  · rcases hfaithful.1 h with hstatus | hbody | hempty
    · cases hstatus
    · cases hbody
    · cases hempty
  · exact (hvalues (by decide) nofun).2

end Rest

end EntityRest
