import EntityRest.Json.Basic

/-! # Strict equality of JSON values

`Json.same` is an equivalence: every value is the same as itself, the order of the two sides does not
matter, and values that are the same as a third one are the same. -/

namespace EntityRest

theorem Double.same_comm (x y : Double) : x.same y = y.same x := by
  rw [Double.same, Double.same, Bool.beq_comm]

theorem Number.same_comm : ∀ m n : Number, m.same n = n.same m
  | .int _, .int _ => Bool.beq_comm
  | .int _, .float _ => rfl
  | .float _, .int _ => rfl
  | .float x, .float y => x.same_comm y

theorem Number.same_refl (n : Number) : n.same n = true := by
  cases n <;> simp [same, Double.same]

theorem Number.same_trans {l m n : Number} (h : l.same m = true) (h' : m.same n = true) :
    l.same n = true := by
  cases l <;> cases m <;> cases n <;> simp_all [same, Double.same]

namespace Json

mutual

theorem same_comm : ∀ a b : Json, a.same b = b.same a
  | a, b => by
    cases a <;> cases b <;> simp only [same]
    · exact Bool.beq_comm
    · exact Number.same_comm _ _
    · exact Bool.beq_comm
    · exact sameItems_comm _ _
    · exact sameFields_comm _ _

theorem sameItems_comm : ∀ as bs : List Json, sameItems as bs = sameItems bs as
  | [], [] => rfl
  | [], _ :: _ => rfl
  | _ :: _, [] => rfl
  | a :: as, b :: bs => by rw [sameItems, sameItems, same_comm a b, sameItems_comm as bs]

theorem sameFields_comm : ∀ as bs : List (String × Json), sameFields as bs = sameFields bs as
  | [], [] => rfl
  | [], _ :: _ => rfl
  | _ :: _, [] => rfl
  | (k, a) :: as, (l, b) :: bs => by
    rw [sameFields, sameFields, same_comm a b, sameFields_comm as bs, Bool.beq_comm (a := k)]

end

mutual

theorem same_refl : ∀ a : Json, a.same a = true
  | .null => rfl
  | .bool _ => by simp [same]
  | .num n => n.same_refl
  | .str _ => by simp [same]
  | .arr items => sameItems_refl items
  | .obj fields => sameFields_refl fields

theorem sameItems_refl : ∀ as : List Json, sameItems as as = true
  | [] => rfl
  | a :: as => by rw [sameItems, same_refl a, sameItems_refl as]; rfl

theorem sameFields_refl : ∀ as : List (String × Json), sameFields as as = true
  | [] => rfl
  | (k, a) :: as => by rw [sameFields, same_refl a, sameFields_refl as, BEq.rfl]; rfl

end

mutual

theorem same_trans : ∀ {a b c : Json}, a.same b = true → b.same c = true → a.same c = true
  | a, b, c, h, h' => by
    cases a <;> cases b <;> simp only [same, Bool.false_eq_true] at h <;> cases c <;>
      simp only [same, Bool.false_eq_true] at h' ⊢
    · simp_all
    · exact Number.same_trans h h'
    · simp_all
    · exact sameItems_trans h h'
    · exact sameFields_trans h h'

theorem sameItems_trans : ∀ {as bs cs : List Json}, sameItems as bs = true → sameItems bs cs = true →
    sameItems as cs = true
  | as, bs, cs, h, h' => by
    cases as <;> cases bs <;> simp only [sameItems, Bool.false_eq_true] at h <;> cases cs <;>
      simp only [sameItems, Bool.false_eq_true] at h' ⊢
    rw [Bool.and_eq_true] at h h' ⊢
    exact ⟨same_trans h.1 h'.1, sameItems_trans h.2 h'.2⟩

theorem sameFields_trans : ∀ {as bs cs : List (String × Json)}, sameFields as bs = true →
    sameFields bs cs = true → sameFields as cs = true
  | [], [], [], _, _ => rfl
  | (k, a) :: as, (l, b) :: bs, (m, c) :: cs, h, h' => by
    rw [sameFields, Bool.and_eq_true, Bool.and_eq_true, beq_iff_eq] at h h' ⊢
    exact ⟨⟨h.1.1.trans h'.1.1, same_trans h.1.2 h'.1.2⟩, sameFields_trans h.2 h'.2⟩

end

end Json

end EntityRest
