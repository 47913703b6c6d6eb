import EntityRest.Proofs.Query.Replacement
import EntityRest.Proofs.Query.SortText

/-! # Queries as requests write them

A request asks for tests of fields, a sorting and relations to embed, and writes them as parameters. Different
parameters of such a request do not replace each other, so all of them are in force, in whatever order they
come; with `makes_filterOf` the filter that is read makes the tests that were written, and no others
(`makes_of_written`). The sorting and the names are read back from their texts. Parameters with other names
change nothing of this, and those that look like a filter and are none change nothing at all. Nor is there a
query that cannot be read: no step of the reading meets an argument that it has no answer for
(`ofParams?_eq`). -/

namespace EntityRest.ListQuery

/-! ### What is written -/

/-- The text for an operator, which is given by one of its names. -/
structure OperatorText where
  op : FilterOp
  name : String
  text : String
  named : name ∈ op.names

/-- What a request writes for a field: a text alone, or texts for some operators, each of them once. -/
inductive Clause where
  | bare (text : String)
  | operators (tests : List OperatorText) (nonempty : tests ≠ [])
      (apart : (tests.map OperatorText.op).Nodup)

/-- One parameter of a clause: its operator with the name that it is given by, if there is one, and its text. -/
structure Wording where
  op : Option FilterOp
  name : Option String
  text : String

namespace Clause

def wordings : Clause → List Wording
  | bare text => [⟨none, none, text⟩]
  | operators tests _ _ => tests.map fun t => ⟨some t.op, some t.name, t.text⟩

/-- The parameters that hold the clause for a field. -/
def parameters (field : String) (clause : Clause) : List (String × String) :=
  clause.wordings.map fun w => (filterKey field w.name, w.text)

/-- The condition that a clause stands for. Of the operators the order does not count. -/
inductive Means : Clause → Condition → Prop
  | bare (text : String) : Means (.bare text) (.literal (coerce text))
  | operators {tests : List OperatorText} {nonempty : tests ≠ []}
      {apart : (tests.map OperatorText.op).Nodup} {m : OrdMap FilterOp Json}
      (h : m.toList.Perm (tests.map fun t => (t.op, operand t.op t.text))) :
    Means (.operators tests nonempty apart) (.ops m)

end Clause

/-- What a request asks for: each field at most once in the filter and in the sorting, each relation at
most once, and all names such that they can be written. -/
structure Written where
  clauses : List (String × Clause)
  sort : List (String × SortOrder)
  embed : List String
  bracketable : ∀ c ∈ clauses, Bracketable c.1
  clauses_apart : (clauses.map Prod.fst).Nodup
  sort_listable : ∀ e ∈ sort, Text.Listable e.1
  sort_apart : (sort.map Prod.fst).Nodup
  embed_listable : ∀ name ∈ embed, Text.Listable name
  embed_apart : embed.Nodup

namespace Written

def filterParameters (q : Written) : List (String × String) := q.clauses.flatMap fun c => c.2.parameters c.1

def parameters (q : Written) : List (String × String) :=
  q.filterParameters ++ [("sort", sortText q.sort), ("include", ",".intercalate q.embed)]

/-- A query asks for what is written: tests of the same fields with conditions that the clauses stand for,
the same sorting, and the same relations. -/
structure Reads (q : Written) (r : ListQuery) : Prop where
  fields : r.filter.keys.Perm (q.clauses.map Prod.fst)
  conditions : ∀ c ∈ q.clauses, ∃ condition, r.filter.get? c.1 = some condition ∧ c.2.Means condition
  sort : r.sort.toList = q.sort
  embed : r.embed = q.embed

end Written

/-- The name of a parameter that looks like a filter and is none: its brackets do not hold a field, or a
field and an operator, or what stands for the operator is the name of none. -/
inductive IsIdle (key : String) : Prop
  | malformed (hstart : "filter[".toList <+: key.toList)
      (hshape : ∀ field op, Bracketable field → (∀ name ∈ op, Bracketable name) → key ≠ filterKey field op) :
    IsIdle key
  | unknown {field name : String} (hfield : Bracketable field) (hname : Bracketable name)
      (hkey : key = filterKey field (some name)) (hop : ∀ op : FilterOp, name ∉ op.names) : IsIdle key

/-! ### One parameter -/

theorem ofName?_of_mem_names {op : FilterOp} {name : String} (h : name ∈ op.names) :
    FilterOp.ofName? name = some op := by
  have hall : ∀ op ∈ FilterOp.all, ∀ name ∈ op.names, FilterOp.ofName? name = some op := by decide
  exact hall op (by cases op <;> decide) name h

theorem bracketable_of_mem_names {op : FilterOp} {name : String} (h : name ∈ op.names) :
    Bracketable name := by
  have hall : ∀ op ∈ FilterOp.all, ∀ name ∈ op.names, Bracketable name := by decide
  exact hall op (by cases op <;> decide) name h

theorem slot?_eq_none_of_no_filter {key : String} (h : ¬"filter[".toList <+: key.toList) :
    slot? key = none := by
  unfold slot?
  cases hkey : filterKey? key with
  | none => rfl
  | some slot =>
    obtain ⟨-, -, rfl⟩ := filterKey?_eq_some_iff.1 hkey
    exact absurd (filter_prefix_filterKey _ _) h

/-- A parameter that looks like a filter and is none is not read. -/
theorem IsIdle.slot?_eq_none {key : String} (h : IsIdle key) : slot? key = none := by
  unfold slot?
  cases h with
  | malformed _ hshape =>
    cases hkey : filterKey? key with
    | none => rfl
    | some slot =>
      obtain ⟨hfield, hname, heq⟩ := filterKey?_eq_some_iff.1 hkey
      exact absurd heq (hshape _ _ hfield hname)
  | @unknown field name hfield hname hkey hop =>
    have hread : filterKey? key = some (field, some name) := by
      rw [hkey]
      exact filterKey?_filterKey hfield fun _ heq => Option.mem_some.1 heq ▸ hname
    have hnone : FilterOp.ofName? name = none :=
      List.find?_eq_none.2 fun op _ => by simpa using hop op
    rw [hread]
    dsimp only
    rw [hnone]
    rfl

theorem IsIdle.starts {key : String} (h : IsIdle key) : "filter[".toList <+: key.toList := by
  cases h with
  | malformed hstart _ => exact hstart
  | unknown _ _ hkey _ => rw [hkey]; exact filter_prefix_filterKey _ _

/-! ### One clause -/

section

variable {clause : Clause} {field : String} {w w' : Wording}

theorem Clause.exists_wording (clause : Clause) : ∃ w, w ∈ clause.wordings := by
  cases clause with
  | bare text => exact ⟨_, List.mem_singleton_self _⟩
  | operators tests nonempty _ =>
    obtain ⟨t, ht⟩ := List.exists_mem_of_ne_nil tests nonempty
    exact ⟨_, List.mem_map_of_mem ht⟩

/-- A parameter of a clause is read as one for its field and its operator. -/
theorem slot?_of_wording (hfield : Bracketable field) (hw : w ∈ clause.wordings) :
    slot? (filterKey field w.name) = some (field, w.op) := by
  unfold slot?
  cases clause with
  | bare text =>
    obtain rfl := List.mem_singleton.1 hw
    have hread : filterKey? (filterKey field none) = some (field, none) := filterKey?_filterKey hfield nofun
    rw [hread]
  | operators tests _ _ =>
    obtain ⟨t, -, rfl⟩ := List.mem_map.1 hw
    have hname : Bracketable t.name := bracketable_of_mem_names t.named
    rw [filterKey?_filterKey hfield fun _ heq => Option.mem_some.1 heq ▸ hname]
    dsimp only
    rw [ofName?_of_mem_names t.named]
    rfl

/-- No test of a clause takes the place of another one. -/
theorem eq_of_supersedes (hw : w ∈ clause.wordings) (hw' : w' ∈ clause.wordings)
    (h : Supersedes (field, w'.op) (field, w.op)) : w' = w := by
  obtain ⟨-, hop⟩ := h
  cases clause with
  | bare text => rw [List.mem_singleton.1 hw, List.mem_singleton.1 hw']
  | operators tests _ apart =>
    obtain ⟨t, ht, rfl⟩ := List.mem_map.1 hw
    obtain ⟨t', ht', rfl⟩ := List.mem_map.1 hw'
    rcases hop with hop | hop | hop
    · cases hop
    · cases hop
    · rw [List.inj_on_of_nodup_map apart ht' ht (Option.some.inj hop)]

/-- A condition that asks for what the clause says is the one that the clause stands for. -/
theorem Clause.means_of_asks {c : Condition}
    (h : ∀ op v, c.Asks op v ↔ ∃ w ∈ clause.wordings, op = w.op ∧ v = valueOf w.op w.text) :
    clause.Means c := by
  cases clause with
  | bare text =>
    have hasks : c.Asks none (coerce text) := (h _ _).2 ⟨_, List.mem_singleton_self _, rfl, rfl⟩
    cases hasks
    exact .bare text
  | operators tests nonempty apart =>
    obtain ⟨t, ht⟩ := List.exists_mem_of_ne_nil tests nonempty
    have hasks : c.Asks (some t.op) (operand t.op t.text) :=
      (h _ _).2 ⟨_, List.mem_map_of_mem ht, rfl, rfl⟩
    obtain ⟨m, rfl⟩ : ∃ m, c = .ops m := by cases hasks; exact ⟨_, rfl⟩
    have hapart : (tests.map fun t => (t.op, operand t.op t.text)).Nodup := by
      refine List.Nodup.of_map Prod.fst ?_
      rwa [List.map_map]
    refine .operators ((List.perm_ext_iff_of_nodup m.nodup_toList hapart).2 fun ⟨op, v⟩ => ?_)
    have hget : (op, v) ∈ m.toList ↔ (Condition.ops m).Asks (some op) v := by
      rw [← OrdMap.get?_eq_some_iff, Condition.asks_ops]
      simp
    rw [hget, h, List.mem_map]
    constructor
    · rintro ⟨w, hw, hop, hv⟩
      obtain ⟨t, ht, rfl⟩ := List.mem_map.1 hw
      cases hop
      exact ⟨t, ht, by rw [hv]; rfl⟩
    · rintro ⟨t, ht, heq⟩
      cases heq
      exact ⟨_, List.mem_map_of_mem ht, rfl, rfl⟩

end

/-! ### All parameters -/

/-- Every condition of the filter asks for something. -/
def Filter.Asking (f : Filter) : Prop := ∀ field c, f.get? field = some c → ∃ op v, c.Asks op v

theorem asking_addTest {f : Filter} (hf : Filter.Asking f) (t : Test) : Filter.Asking (addTest f t) := by
  intro field c hc
  rw [addTest, OrdMap.get?_insert] at hc
  split at hc
  · cases hc
    cases t.op with
    | none => exact ⟨none, t.value, .literal _⟩
    | some op => exact ⟨some op, t.value, asks_addOperator.2 (.inl ⟨rfl, rfl⟩)⟩
  · exact hf field c hc

theorem asking_filterOf (params : OrdMap String String) : Filter.Asking (filterOf params) := by
  refine List.foldlRecOn (motive := Filter.Asking) _ _ (fun _ _ h => by cases h) fun f hf ⟨key, raw⟩ _ => ?_
  dsimp only
  rw [addParameter_eq]
  cases test? key raw with
  | none => exact hf
  | some t => exact asking_addTest hf t

section

variable {q : Written} {other : List (String × String)} {params : OrdMap String String}
  (hother : ∀ e ∈ other, ¬"filter[".toList <+: e.1.toList)
  (hparams : params.toList.Perm (q.parameters ++ other))

theorem Written.mem_filterParameters {e : String × String} :
    e ∈ q.filterParameters ↔ ∃ c ∈ q.clauses, ∃ w ∈ c.2.wordings, (filterKey c.1 w.name, w.text) = e := by
  simp only [filterParameters, List.mem_flatMap, Clause.parameters, List.mem_map]

include hother hparams

theorem mem_filterParameters_of_slot? {e : String × String} {slot : String × Option FilterOp}
    (he : e ∈ params.toList) (hslot : slot? e.1 = some slot) : e ∈ q.filterParameters := by
  have hread : "filter[".toList <+: e.1.toList := by
    by_contra h
    cases hslot.symm.trans (slot?_eq_none_of_no_filter h)
  have hsort : ¬"filter[".toList <+: "sort".toList := by decide
  have hembed : ¬"filter[".toList <+: "include".toList := by decide
  rcases List.mem_append.1 (hparams.subset he) with he | he
  · rcases List.mem_append.1 he with he | he
    · exact he
    · simp only [List.mem_cons, List.not_mem_nil, or_false] at he
      rcases he with rfl | rfl
      · exact absurd hread hsort
      · exact absurd hread hembed
  · exact absurd hread (hother e he)

/-- No parameter of a request replaces another one. -/
theorem inForce_of_written {e : String × String} (he : e ∈ q.filterParameters) :
    InForce params.toList e := by
  have hmem : e ∈ params.toList :=
    hparams.symm.subset (List.mem_append_left _ (List.mem_append_left _ he))
  obtain ⟨before, after, heq⟩ := List.append_of_mem hmem
  refine ⟨before, after, heq, fun later hlater hreplaces => ?_⟩
  have hne : later ≠ e := by
    have hnodup := params.nodup_toList
    rw [heq] at hnodup
    rintro rfl
    exact (List.nodup_cons.1 (List.nodup_append.1 hnodup).2.1).1 hlater
  obtain ⟨slot', slot, hslot', hslot, hsupersedes⟩ := hreplaces
  have hlater : later ∈ params.toList := by
    rw [heq]
    exact List.mem_append_right _ (List.mem_cons_of_mem _ hlater)
  obtain ⟨⟨field, clause⟩, hc, w, hw, rfl⟩ := Written.mem_filterParameters.1 he
  obtain ⟨⟨field', clause'⟩, hc', w', hw', rfl⟩ :=
    Written.mem_filterParameters.1 (mem_filterParameters_of_slot? hother hparams hlater hslot')
  obtain rfl := Option.some.inj (hslot.symm.trans (slot?_of_wording (q.bracketable _ hc) hw))
  obtain rfl := Option.some.inj (hslot'.symm.trans (slot?_of_wording (q.bracketable _ hc') hw'))
  -- the two are of one field, and so of one clause
  obtain rfl : field' = field := hsupersedes.1
  obtain rfl : clause' = clause :=
    congrArg Prod.snd (List.inj_on_of_nodup_map q.clauses_apart hc' hc rfl)
  rw [eq_of_supersedes hw hw' hsupersedes] at hne
  exact hne rfl

/-- The filter makes the tests that are written, and no others. -/
theorem makes_of_written {t : Test} :
    Filter.Makes (filterOf params) t ↔
      ∃ c ∈ q.clauses, ∃ w ∈ c.2.wordings, t = ⟨c.1, w.op, valueOf w.op w.text⟩ := by
  rw [makes_filterOf]
  constructor
  · rintro ⟨e, ⟨before, after, heq, -⟩, ht⟩
    have he : e ∈ params.toList := by rw [heq]; exact List.mem_append_right _ List.mem_cons_self
    obtain ⟨slot, hslot, rfl⟩ := Option.map_eq_some_iff.1 ht
    obtain ⟨c, hc, w, hw, rfl⟩ :=
      Written.mem_filterParameters.1 (mem_filterParameters_of_slot? hother hparams he hslot)
    obtain rfl := Option.some.inj (hslot.symm.trans (slot?_of_wording (q.bracketable _ hc) hw))
    exact ⟨c, hc, w, hw, rfl⟩
  · rintro ⟨c, hc, w, hw, rfl⟩
    refine ⟨_, inForce_of_written hother hparams (Written.mem_filterParameters.2 ⟨c, hc, w, hw, rfl⟩), ?_⟩
    rw [test?, slot?_of_wording (q.bracketable _ hc) hw]
    rfl

theorem get?_filterOf_of_written {field : String} {condition : Condition}
    (h : (filterOf params).get? field = some condition) {clause : Clause}
    (hc : (field, clause) ∈ q.clauses) : clause.Means condition := by
  refine Clause.means_of_asks fun op v => ?_
  have hmakes : condition.Asks op v ↔ Filter.Makes (filterOf params) ⟨field, op, v⟩ := by
    simp [Filter.Makes, h]
  rw [hmakes, makes_of_written hother hparams]
  constructor
  · rintro ⟨⟨field', clause'⟩, hc', w, hw, heq⟩
    cases heq
    obtain rfl : clause' = clause :=
      congrArg Prod.snd (List.inj_on_of_nodup_map q.clauses_apart hc' hc rfl)
    exact ⟨w, hw, rfl, rfl⟩
  · rintro ⟨w, hw, rfl, rfl⟩
    exact ⟨_, hc, w, hw, rfl⟩

theorem mem_keys_filterOf_of_written {field : String} :
    field ∈ (filterOf params).keys ↔ field ∈ q.clauses.map Prod.fst := by
  rw [← OrdMap.contains_iff_mem_keys, OrdMap.contains, Option.isSome_iff_exists, List.mem_map]
  constructor
  · rintro ⟨condition, h⟩
    obtain ⟨op, v, hasks⟩ := asking_filterOf params field condition h
    obtain ⟨c, hc, w, -, heq⟩ :=
      (makes_of_written hother hparams (t := ⟨field, op, v⟩)).1 ⟨condition, h, hasks⟩
    exact ⟨c, hc, by cases heq; rfl⟩
  · rintro ⟨c, hc, rfl⟩
    obtain ⟨w, hw⟩ := c.2.exists_wording
    obtain ⟨condition, h, -⟩ := (makes_of_written hother hparams).2 ⟨c, hc, w, hw, rfl⟩
    exact ⟨condition, h⟩

omit hother in
theorem get?_of_written {e : String × String}
    (he : e ∈ [("sort", sortText q.sort), ("include", ",".intercalate q.embed)]) :
    params.get? e.1 = some e.2 :=
  OrdMap.get?_eq_some_iff.2 (hparams.symm.subset (List.mem_append_left _ (List.mem_append_right _ he)))

end

theorem foldl_distinct_of_nodup {l acc : List String} (h : (acc ++ l).Nodup) :
    l.foldl (fun names name => if name ∈ names then names else names ++ [name]) acc = acc ++ l := by
  induction l generalizing acc with
  | nil => exact (List.append_nil acc).symm
  | cons name l ih =>
    have hnew : name ∉ acc := fun hmem => (List.nodup_append.1 h).2.2 name hmem name List.mem_cons_self rfl
    rw [List.append_cons] at h
    rw [List.foldl_cons, if_neg hnew, ih h, ← List.append_cons]

theorem embedOf_eq {params : OrdMap String String} {names : List String}
    (h : params.get? "include" = some (",".intercalate names)) (hlistable : ∀ name ∈ names, Text.Listable name)
    (hapart : names.Nodup) : embedOf params = names := by
  rw [embedOf, h, Option.elim_some, Text.listItems_intercalate hlistable]
  exact foldl_distinct_of_nodup hapart

/-- What is written is read, in whatever order the parameters come, and whatever other ones are among them. -/
theorem Written.reads {q : Written} {other : List (String × String)} {params : OrdMap String String}
    (hother : ∀ e ∈ other, ¬"filter[".toList <+: e.1.toList)
    (hparams : params.toList.Perm (q.parameters ++ other)) : q.Reads (ofParams params) where
  fields := (List.perm_ext_iff_of_nodup (filterOf params).nodup_keys q.clauses_apart).2 fun _ =>
    mem_keys_filterOf_of_written hother hparams
  conditions c hc := by
    have hkey : c.1 ∈ (filterOf params).keys :=
      (mem_keys_filterOf_of_written hother hparams).2 (List.mem_map_of_mem hc)
    obtain ⟨condition, h⟩ := Option.isSome_iff_exists.1 (OrdMap.contains_iff_mem_keys.2 hkey)
    exact ⟨condition, h, get?_filterOf_of_written hother hparams h hc⟩
  sort := by
    have hsort : params.get? "sort" = some (sortText q.sort) :=
      get?_of_written hparams List.mem_cons_self
    show ((either? params "sort" "orderBy").elim ∅ sortOf).toList = q.sort
    rw [either?, hsort]
    exact toList_sortOf_sortText q.sort_listable q.sort_apart
  embed := embedOf_eq (get?_of_written hparams (List.mem_cons_of_mem _ List.mem_cons_self))
    q.embed_listable q.embed_apart

/-! ### Parameters that are not read -/

/-- A query is made of its filter and of the parameters that do not look like one. -/
theorem ofParams_congr {params params' : OrdMap String String} (hfilter : filterOf params = filterOf params')
    (hget : ∀ key, ¬"filter[".toList <+: key.toList → params.get? key = params'.get? key) :
    ofParams params = ofParams params' := by
  have hsort := hget "sort" (by decide)
  have horder := hget "orderBy" (by decide)
  have hlimit := hget "limit" (by decide)
  have htake := hget "take" (by decide)
  have hpage := hget "page" (by decide)
  have hoffset := hget "offset" (by decide)
  have hskip := hget "skip" (by decide)
  have hembed := hget "include" (by decide)
  simp only [ofParams, takeOf, skipOf, embedOf, either?, hfilter, hsort, horder, hlimit, htake, hpage, hoffset,
    hskip, hembed]

/-- A parameter that looks like a filter and is none changes nothing, wherever it stands. -/
theorem ofParams_of_isIdle {params larger : OrdMap String String} {before after : List (String × String)}
    {key raw : String} (hkey : IsIdle key) (hparams : params.toList = before ++ after)
    (hlarger : larger.toList = before ++ (key, raw) :: after) : ofParams larger = ofParams params := by
  have hskip (f : Filter) : addParameter f key raw = f := by
    rw [addParameter_eq, test?, hkey.slot?_eq_none]
    rfl
  refine ofParams_congr ?_ fun k hk => ?_
  · rw [filterOf, filterOf, hparams, hlarger, List.foldl_append, List.foldl_append, List.foldl_cons]
    dsimp only
    rw [hskip]
  · have hne : k ≠ key := by
      rintro rfl
      exact hk hkey.starts
    rw [OrdMap.get?, OrdMap.get?, hparams, hlarger, OrdMap.lookup_append, OrdMap.lookup_append,
      Lookup.lookup_cons_pair, if_neg hne]

/-! ### Steps that could fail -/

/-- The sorting in a text, with its items read by their bytes. -/
def sortOf? (raw : String) : Option Sorting :=
  ((Text.listItems raw).mapM sortItemByBytes?).map fun items => OrdMap.ofList (items.filterMap id)

/-- The number before a number; there is none before zero. -/
def pred? : Nat → Option Nat
  | 0 => none
  | n + 1 => some n

def skipOf? (params : OrdMap String String) (take : Nat) : Option Nat :=
  match (params.get? "page").bind Text.int64? with
  | some page => (pred? (max page 1).toNat).map fun before => min (before * take) maxSkip
  | none => some (((either? params "offset" "skip").bind Text.int64?).elim 0 Int.toNat)

/-- The reading of a query in which the steps that not every argument has an answer for can fail: taking
the first byte of an item of the sorting, cutting the item behind it, and counting down from a page number. -/
def ofParams? (params : OrdMap String String) : Option ListQuery := do
  let sort ← (either? params "sort" "orderBy").elim (some ∅) sortOf?
  let take := takeOf params
  let skip ← skipOf? params take
  some { filter := filterOf params, sort, take, skip, embed := embedOf params }

theorem mapM_sortItemByBytes? {items : List String} (h : ∀ item ∈ items, item ≠ "") :
    items.mapM sortItemByBytes? = some (items.map sortItem?) := by
  induction items with
  | nil => rfl
  | cons item items ih =>
    have hitem : item ≠ "" := h item List.mem_cons_self
    have hrest := ih fun item hmem => h item (List.mem_cons_of_mem _ hmem)
    rw [List.mapM_cons, sortItemByBytes?_eq hitem, hrest]
    rfl

theorem sortOf?_eq (raw : String) : sortOf? raw = some (sortOf raw) := by
  rw [sortOf?, mapM_sortItemByBytes? fun item => Text.ne_empty_of_mem_listItems, Option.map_some,
    List.filterMap_map]
  rfl

theorem skipOf?_eq (params : OrdMap String String) (take : Nat) :
    skipOf? params take = some (skipOf params take) := by
  unfold skipOf? skipOf
  cases (params.get? "page").bind Text.int64? with
  | none => rfl
  | some page =>
    obtain ⟨n, hn⟩ : ∃ n, (max page 1).toNat = n + 1 := ⟨(max page 1).toNat - 1, by omega⟩
    dsimp only
    rw [skipOfPage, hn]
    rfl

/-- No query makes the reading fail. -/
theorem ofParams?_eq (params : OrdMap String String) : ofParams? params = some (ofParams params) := by
  have hsort : (either? params "sort" "orderBy").elim (some ∅) sortOf? =
      some ((either? params "sort" "orderBy").elim ∅ sortOf) := by
    cases either? params "sort" "orderBy" with
    | none => rfl
    | some raw => exact sortOf?_eq raw
  unfold ofParams?
  rw [hsort]
  dsimp only [Option.bind_eq_bind, Option.bind_some]
  rw [skipOf?_eq]
  rfl

/-! ### Reading undoes writing -/

/-- Whatever is asked for, in the order and company of any parameters, is what the query that is read asks
for; parameters that look like a filter and are none change nothing; and every query can be read. -/
theorem ofParams_written :
    (∀ (q : Written) (other : List (String × String)) (params : OrdMap String String),
        (∀ e ∈ other, ¬"filter[".toList <+: e.1.toList) → params.toList.Perm (q.parameters ++ other) →
          q.Reads (ofParams params)) ∧
      (∀ (params larger : OrdMap String String) (before after : List (String × String)) (key raw : String),
        IsIdle key → params.toList = before ++ after → larger.toList = before ++ (key, raw) :: after →
          ofParams larger = ofParams params) ∧
      ∀ params : OrdMap String String, ofParams? params = some (ofParams params) :=
  ⟨fun _ _ _ hother hparams => Written.reads hother hparams,
    fun _ _ _ _ _ _ hkey hparams hlarger => ofParams_of_isIdle hkey hparams hlarger, ofParams?_eq⟩

/-- Orders in one of two states and not done, at a price, the latest first and then by name. -/
def orders : Written where
  clauses :=
    [("state", .operators [⟨.isIn, "in", "open, held,", by decide⟩, ⟨.not, "ne", "done", by decide⟩]
        (by decide) (by decide)),
      ("price", .bare "42")]
  sort := [("placedAt", .desc), ("name", .asc)]
  embed := ["items", "buyer"]
  bracketable := by decide
  clauses_apart := by decide
  sort_listable := by decide
  sort_apart := by decide
  embed_listable := by decide
  embed_apart := by decide

theorem ofParams_written_orders :
    let before := [("sort", "-placedAt,+name"), ("filter[state][ne]", "done"), ("page", "2")]
    let after := [("filter[price]", "42"), ("include", "items,buyer"), ("filter[state][in]", "open, held,")]
    let read := ofParams (OrdMap.ofList (before ++ after))
    orders.Reads read ∧ read.filter.get? "price" = some (.literal (.num (.int 42))) ∧
      ofParams (OrdMap.ofList (before ++ ("filter[state][bogus]", "gone") :: after)) = read := by
  intro before after read
  have hpage : ∀ e ∈ [("page", "2")], ¬"filter[".toList <+: e.1.toList := by decide
  have hstate : Bracketable "state" := by decide
  have hbogus : Bracketable "bogus" := by decide
  have hunknown : IsIdle "filter[state][bogus]" :=
    .unknown hstate hbogus (by decide) fun op => by cases op <;> decide
  have hreads : orders.Reads read := ofParams_written.1 orders [("page", "2")] _ hpage (by decide)
  obtain ⟨_, hprice, ⟨⟩⟩ := hreads.conditions _ (List.mem_cons_of_mem _ (List.mem_singleton_self _))
  exact ⟨hreads, hprice, ofParams_written.2.1 _ _ before after _ "gone" hunknown rfl rfl⟩

end EntityRest.ListQuery
