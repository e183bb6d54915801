/-
# When a nil difference means equal objects

`matchContents` and the mutation check take a nil `Node.Diff` for "the same
object".  That is right for *plain* objects (`diff_eq_none_iff_same_of_plain`):
no null, no empty list or object below the root, and names that are not empty,
hold no dot and do not read as a list index.  Their leaves, named by lists of
names and indices (`Json.Leaf`), are told apart by the dotted paths
(`dotted_injective`) and determine the object (`Json.Plain.canon_eq`).

In general the comparison sees the dotted leaves and nothing else, so it is
right for two objects exactly when those tell them apart
(`diff_faithful_iff`).
-/

import IntegrityShield.Mapnode.DiffLaws

namespace IntegrityShield
namespace Mapnode

/-- The leaf of a value at a list of names and indices. -/
inductive Json.Leaf : Json → List String → Scalar → Prop
  | scalar (v : Scalar) : Json.Leaf (.scalar v) [] v
  | elem {elems : List Json} {i : ℕ} {j : Json} {segs : List String} {v : Scalar} :
      elems[i]? = some j → Json.Leaf j segs v → Json.Leaf (.arr elems) (Strings.itoa i :: segs) v
  | field {fields : JsonMap} {k : String} {j : Json} {segs : List String} {v : Scalar} :
      (k, j) ∈ fields → Json.Leaf j segs v → Json.Leaf (.obj fields) (k :: segs) v

/-- The dotted path of a list of names, below a path. -/
def dotted (path : String) (segs : List String) : String := segs.foldl childKey path

mutual

/-- The leaves a node lists are the leaves of its value, under their dotted
paths. -/
theorem mem_leavesFrom (path p : String) (v : Scalar) : ∀ j : Json,
    (p, v) ∈ (newNode j).leavesFrom path ↔ ∃ segs, j.Leaf segs v ∧ p = dotted path segs
  | .null => by
      constructor
      · exact fun h => absurd h List.not_mem_nil
      · rintro ⟨_, h, _⟩
        cases h
  | .scalar w => by
      rw [newNode, Node.leavesFrom, List.mem_singleton, Prod.mk.injEq]
      constructor
      · rintro ⟨rfl, rfl⟩
        exact ⟨[], .scalar v, rfl⟩
      · rintro ⟨_, h, rfl⟩
        cases h
        exact ⟨rfl, rfl⟩
  | .arr elems => by
      rw [newNode, Node.leavesFrom, mem_elemLeaves path p v 0 elems]
      constructor
      · rintro ⟨i, j, segs, hi, hj, rfl⟩
        exact ⟨_, .elem hi hj, by rw [Nat.zero_add]; rfl⟩
      · rintro ⟨_, h, rfl⟩
        cases h with
        | elem hi hj => exact ⟨_, _, _, hi, hj, by rw [Nat.zero_add]; rfl⟩
  | .obj fields => by
      rw [newNode, Node.leavesFrom, mem_fieldLeaves path p v fields]
      constructor
      · rintro ⟨k, j, segs, hk, hj, rfl⟩
        exact ⟨_, .field hk hj, rfl⟩
      · rintro ⟨_, h, rfl⟩
        cases h with
        | field hk hj => exact ⟨_, _, _, hk, hj, rfl⟩

theorem mem_elemLeaves (path p : String) (v : Scalar) : ∀ (n : ℕ) (elems : List Json),
    (p, v) ∈ elemLeaves path n (newNodes elems) ↔ ∃ i j segs, elems[i]? = some j ∧
      j.Leaf segs v ∧ p = dotted (childKey path (Strings.itoa (n + i))) segs
  | _, [] => by simp [newNodes, elemLeaves]
  | n, j :: rest => by
      rw [newNodes, elemLeaves, List.mem_append, mem_leavesFrom _ p v j,
        mem_elemLeaves path p v (n + 1) rest]
      constructor
      · rintro (⟨segs, hj, rfl⟩ | ⟨i, j', segs, hi, hj, rfl⟩)
        · exact ⟨0, j, segs, rfl, hj, rfl⟩
        · exact ⟨i + 1, j', segs, hi, hj, by rw [Nat.add_right_comm, Nat.add_assoc]⟩
      · rintro ⟨i, j', segs, hi, hj, rfl⟩
        cases i with
        | zero =>
            obtain rfl := Option.some.inj hi
            exact Or.inl ⟨segs, hj, rfl⟩
        | succ i => exact Or.inr ⟨i, j', segs, hi, hj, by rw [Nat.add_right_comm, Nat.add_assoc]⟩

theorem mem_fieldLeaves (path p : String) (v : Scalar) : ∀ fields : JsonMap,
    (p, v) ∈ fieldLeaves path (newFields fields) ↔ ∃ k j segs, (k, j) ∈ fields ∧
      j.Leaf segs v ∧ p = dotted (childKey path k) segs
  | [] => by simp [newFields, fieldLeaves]
  | (k, j) :: rest => by
      rw [newFields, fieldLeaves, List.mem_append, mem_leavesFrom _ p v j,
        mem_fieldLeaves path p v rest]
      constructor
      · rintro (⟨segs, hj, rfl⟩ | ⟨k', j', segs, hk, hj, rfl⟩)
        · exact ⟨k, j, segs, List.mem_cons_self .., hj, rfl⟩
        · exact ⟨k', j', segs, List.mem_cons_of_mem _ hk, hj, rfl⟩
      · rintro ⟨k', j', segs, hk, hj, rfl⟩
        rcases List.mem_cons.1 hk with hk | hk
        · cases hk
          exact Or.inl ⟨segs, hj, rfl⟩
        · exact Or.inr ⟨k', j', segs, hk, hj, rfl⟩

end

/-- A name whose dotted path gives it back: not empty, without a dot. -/
def PlainSegment (s : String) : Prop := s ≠ "" ∧ '.' ∉ s.toList

/-- A name of a plain object: a plain segment that is no list index. -/
def PlainName (s : String) : Prop := PlainSegment s ∧ ∀ i, s ≠ Strings.itoa i

/-- A value that its dotted leaves determine. -/
inductive Json.Plain : Json → Prop
  | scalar (v : Scalar) : Json.Plain (.scalar v)
  | arr {elems : List Json} (nonempty : elems ≠ []) (plain : ∀ j ∈ elems, Json.Plain j) :
      Json.Plain (.arr elems)
  | obj {fields : JsonMap} (nonempty : fields ≠ []) (nodup : (fields.map Prod.fst).Nodup)
      (names : ∀ f ∈ fields, PlainName f.1) (plain : ∀ f ∈ fields, Json.Plain f.2) :
      Json.Plain (.obj fields)

/-- An object of plain values under plain names; the object itself may be
empty. -/
structure PlainMap (m : JsonMap) : Prop where
  nodup : (m.map Prod.fst).Nodup
  names : ∀ f ∈ m, PlainName f.1
  plain : ∀ f ∈ m, f.2.Plain

theorem plainSegment_itoa (i : ℕ) : PlainSegment (Strings.itoa i) := by
  refine ⟨Nat.repr_ne_empty, fun h => ?_⟩
  rw [Strings.itoa, Nat.toList_repr] at h
  have hdigit := Nat.isDigit_of_mem_toDigits (b := 10) (by norm_num) (by norm_num) h
  exact absurd hdigit (by decide)

/-- Below a path that is not the root, every segment is appended with a dot. -/
theorem toList_dotted {path : String} (hp : path ≠ "") (segs : List String) :
    (dotted path segs).toList = path.toList ++ segs.flatMap fun s => '.' :: s.toList := by
  induction segs generalizing path with
  | nil => simp [dotted]
  | cons s rest ih =>
      have hchild : childKey path s = path ++ "." ++ s := if_neg hp
      have hne : path ++ "." ++ s ≠ "" := by
        intro h
        have := congrArg String.toList h
        simp at this
      rw [dotted, List.foldl_cons, hchild, ← dotted, ih hne]
      simp

theorem toList_join_cons (s : String) (rest : List String) :
    (Strings.join (s :: rest) ".").toList = s.toList ++ rest.flatMap fun s => '.' :: s.toList := by
  rw [Strings.join, String.toList_ofList]
  induction rest generalizing s with
  | nil => simp [List.intercalate]
  | cons t rest ih =>
      have := ih t
      simp_all [List.intercalate]

/-- The dotted path of plain segments joins them. -/
theorem dotted_eq_join {segs : List String} (h : ∀ s ∈ segs, PlainSegment s) :
    dotted "" segs = Strings.join segs "." := by
  cases segs with
  | nil => rfl
  | cons s rest =>
      have hs : s ≠ "" := (h s (List.mem_cons_self ..)).1
      have hroot : dotted "" (s :: rest) = dotted s rest := rfl
      refine String.toList_inj.1 ?_
      rw [hroot, toList_dotted hs, toList_join_cons]

/-- **Dotted paths of plain segments do not collide.** -/
theorem dotted_injective {segs segs' : List String} (h : ∀ s ∈ segs, PlainSegment s)
    (h' : ∀ s ∈ segs', PlainSegment s) (he : dotted "" segs = dotted "" segs') : segs = segs' := by
  have hnil : ∀ {l : List String}, (∀ s ∈ l, PlainSegment s) → dotted "" l = "" → l = [] := by
    intro l hl hd
    cases l with
    | nil => rfl
    | cons s rest =>
        have hs : s ≠ "" := (hl s (List.mem_cons_self ..)).1
        have hlist := toList_dotted hs rest
        have hroot : dotted s rest = "" := hd
        rw [hroot] at hlist
        have : s.toList = [] := (List.append_eq_nil_iff.1 hlist.symm).1
        exact absurd (String.toList_eq_nil_iff.1 this) hs
  by_cases hs : segs = []
  · subst hs
    exact (hnil h' he.symm).symm
  by_cases hs' : segs' = []
  · subst hs'
    exact hnil h he
  rw [dotted_eq_join h, dotted_eq_join h'] at he
  have hsplit : Strings.split (Strings.join segs ".") '.' = segs :=
    Strings.split_join hs fun s hm => (h s hm).2
  have hsplit' : Strings.split (Strings.join segs' ".") '.' = segs' :=
    Strings.split_join hs' fun s hm => (h' s hm).2
  rw [← hsplit, he, hsplit']

theorem itoa_injective : Function.Injective Strings.itoa := by
  intro i i' h
  have hdigits : Nat.toDigits 10 i = Nat.toDigits 10 i' := by
    rw [← Nat.toList_repr, ← Nat.toList_repr]
    exact congrArg String.toList h
  rw [← @Nat.ofDigitChars_ten_toDigits i, hdigits, Nat.ofDigitChars_ten_toDigits]

theorem leaf_arr_iff {elems : List Json} {i : ℕ} {segs : List String} {v : Scalar} :
    (Json.arr elems).Leaf (Strings.itoa i :: segs) v ↔
      ∃ j, elems[i]? = some j ∧ j.Leaf segs v := by
  constructor
  · intro h
    generalize hk : Strings.itoa i :: segs = segs' at h
    cases h with
    | elem hi hj =>
        obtain ⟨hk', rfl⟩ := List.cons.inj hk
        obtain rfl := itoa_injective hk'
        exact ⟨_, hi, hj⟩
  · rintro ⟨j, hi, hj⟩
    exact .elem hi hj

theorem leaf_obj_iff {fields : JsonMap} {k : String} {segs : List String} {v : Scalar} :
    (Json.obj fields).Leaf (k :: segs) v ↔ ∃ j, (k, j) ∈ fields ∧ j.Leaf segs v := by
  constructor
  · intro h
    cases h with
    | field hk hj => exact ⟨_, hk, hj⟩
  · rintro ⟨j, hk, hj⟩
    exact .field hk hj

/-- Distinct names: an entry is determined by its name. -/
theorem eq_of_mem_fields {fields : JsonMap} (hnd : (fields.map Prod.fst).Nodup) {k : String}
    {j j' : Json} (h : (k, j) ∈ fields) (h' : (k, j') ∈ fields) : j = j' :=
  congrArg Prod.snd (List.inj_on_of_nodup_map hnd h h' rfl)

/-- A plain value has a leaf. -/
theorem Json.Plain.exists_leaf {j : Json} (h : j.Plain) : ∃ segs v, j.Leaf segs v := by
  induction h with
  | scalar v => exact ⟨[], v, .scalar v⟩
  | @arr elems hne _ ih =>
      obtain ⟨j, rest, rfl⟩ := List.exists_cons_of_ne_nil hne
      obtain ⟨segs, v, hj⟩ := ih j (List.mem_cons_self ..)
      exact ⟨_, v, leaf_arr_iff.2 ⟨j, (rfl : (j :: rest)[0]? = some j), hj⟩⟩
  | @obj fields hne _ _ _ ih =>
      obtain ⟨f, rest, rfl⟩ := List.exists_cons_of_ne_nil hne
      obtain ⟨segs, v, hj⟩ := ih f (List.mem_cons_self ..)
      exact ⟨_, v, .field (List.mem_cons_self ..) hj⟩

/-- The places of the leaves of a plain value are plain segments. -/
theorem Json.Plain.plainSegment {j : Json} (h : j.Plain) :
    ∀ {segs : List String} {v : Scalar}, j.Leaf segs v → ∀ s ∈ segs, PlainSegment s := by
  induction h with
  | scalar v =>
      intro segs w hl s hs
      cases hl
      exact absurd hs List.not_mem_nil
  | arr _ _ ih =>
      intro segs w hl s hs
      cases hl with
      | elem hi hj =>
          rcases List.mem_cons.1 hs with rfl | hs
          · exact plainSegment_itoa _
          · exact ih _ (List.mem_of_getElem? hi) hj s hs
  | obj _ _ hnames _ ih =>
      intro segs w hl s hs
      cases hl with
      | field hk hj =>
          rcases List.mem_cons.1 hs with rfl | hs
          · exact (hnames _ hk).1
          · exact ih _ hk hj s hs

/-- A plain value has at most one leaf at a place. -/
theorem Json.Plain.leaf_unique {j : Json} (h : j.Plain) : ∀ {segs : List String} {v v' : Scalar},
    j.Leaf segs v → j.Leaf segs v' → v = v' := by
  induction h with
  | scalar v =>
      intro segs w w' hl hl'
      cases hl
      cases hl'
      rfl
  | arr _ _ ih =>
      intro segs w w' hl hl'
      cases hl with
      | elem hi hj =>
          obtain ⟨j', hi', hj'⟩ := leaf_arr_iff.1 hl'
          obtain rfl := Option.some.inj (hi.symm.trans hi')
          exact ih _ (List.mem_of_getElem? hi) hj hj'
  | obj _ hnd _ _ ih =>
      intro segs w w' hl hl'
      cases hl with
      | field hk hj =>
          obtain ⟨j', hk', hj'⟩ := leaf_obj_iff.1 hl'
          obtain rfl := eq_of_mem_fields hnd hk hk'
          exact ih _ hk hj hj'

theorem canonList_eq_map (elems : List Json) : canonList elems = elems.map Json.canon := by
  induction elems with
  | nil => rfl
  | cons j rest ih => rw [canonList, ih, List.map_cons]

theorem canonFields_eq_map (fields : JsonMap) :
    canonFields fields = fields.map fun f => (f.1, f.2.canon) := by
  induction fields with
  | nil => rfl
  | cons f rest ih => rw [canonFields, ih, List.map_cons]

theorem mem_canon_fields {fields : JsonMap} {f : String × Json} :
    f ∈ (canonFields fields).insertionSort (fun a b => a.1 ≤ b.1) ↔
      ∃ j, (f.1, j) ∈ fields ∧ f.2 = j.canon := by
  rw [List.mem_insertionSort, canonFields_eq_map, List.mem_map]
  constructor
  · rintro ⟨⟨k, j⟩, hf, rfl⟩
    exact ⟨j, hf, rfl⟩
  · rintro ⟨j, hf, hj⟩
    exact ⟨(f.1, j), hf, by rw [← hj]⟩

/-- Listing the fields in another order moves no leaf. -/
theorem leaf_canon_iff (v : Scalar) (segs : List String) :
    ∀ j : Json, j.canon.Leaf segs v ↔ j.Leaf segs v := by
  induction segs with
  | nil =>
      intro j
      cases j <;> constructor <;> intro h <;> cases h <;> exact .scalar _
  | cons k segs ih =>
      intro j
      cases j with
      | null => exact Iff.rfl
      | scalar w => exact Iff.rfl
      | arr elems =>
          rw [Json.canon, canonList_eq_map]
          constructor
          · intro h
            cases h with
            | elem hi hj =>
                rw [List.getElem?_map] at hi
                obtain ⟨j, hi', rfl⟩ := Option.map_eq_some_iff.1 hi
                exact .elem hi' ((ih j).1 hj)
          · intro h
            cases h with
            | elem hi hj =>
                exact .elem (by rw [List.getElem?_map, hi]; rfl) ((ih _).2 hj)
      | obj fields =>
          rw [Json.canon, leaf_obj_iff, leaf_obj_iff]
          constructor
          · rintro ⟨j', hk, hj⟩
            obtain ⟨j, hk, rfl⟩ := mem_canon_fields.1 hk
            exact ⟨j, hk, (ih j).1 hj⟩
          · rintro ⟨j, hk, hj⟩
            exact ⟨j.canon, mem_canon_fields.2 ⟨j, hk, rfl⟩, (ih j).2 hj⟩

/-- Two plain objects with the same leaves have the same names, and the same
leaves under each. -/
theorem PlainMap.match_field {a b : JsonMap} (ha : PlainMap a) (hb : PlainMap b)
    (h : ∀ segs v, (Json.obj a).Leaf segs v ↔ (Json.obj b).Leaf segs v) {k : String} {j : Json}
    (hk : (k, j) ∈ a) :
    ∃ j', (k, j') ∈ b ∧ ∀ segs v, j.Leaf segs v ↔ j'.Leaf segs v := by
  obtain ⟨segs₀, v₀, hleaf⟩ := (ha.plain _ hk).exists_leaf
  obtain ⟨j', hk', _⟩ := leaf_obj_iff.1 ((h _ _).1 (.field hk hleaf))
  refine ⟨j', hk', fun segs v => ⟨fun hj => ?_, fun hj => ?_⟩⟩
  · obtain ⟨j'', hk'', hj''⟩ := leaf_obj_iff.1 ((h _ _).1 (.field hk hj))
    exact eq_of_mem_fields hb.nodup hk'' hk' ▸ hj''
  · obtain ⟨j'', hk'', hj''⟩ := leaf_obj_iff.1 ((h _ _).2 (.field hk' hj))
    exact eq_of_mem_fields ha.nodup hk'' hk ▸ hj''

/-- Objects with distinct names whose entries correspond are listed alike by
name. -/
theorem canon_obj_eq {a b : JsonMap} (ha : (a.map Prod.fst).Nodup) (hb : (b.map Prod.fst).Nodup)
    (hab : ∀ k j, (k, j) ∈ a → ∃ j', (k, j') ∈ b ∧ j.canon = j'.canon)
    (hba : ∀ k j', (k, j') ∈ b → ∃ j, (k, j) ∈ a ∧ j.canon = j'.canon) :
    (Json.obj a).canon = (Json.obj b).canon := by
  have hkeys : ∀ m : JsonMap, (canonFields m).map Prod.fst = m.map Prod.fst := by
    intro m
    rw [canonFields_eq_map, List.map_map]
    rfl
  have hmem : ∀ f, f ∈ canonFields a ↔ f ∈ canonFields b := by
    intro f
    rw [← List.mem_insertionSort fun x y : String × Json => x.1 ≤ y.1, mem_canon_fields,
      ← List.mem_insertionSort fun x y : String × Json => x.1 ≤ y.1, mem_canon_fields]
    constructor
    · rintro ⟨j, hk, hj⟩
      obtain ⟨j', hk', hj'⟩ := hab _ _ hk
      exact ⟨j', hk', hj.trans hj'⟩
    · rintro ⟨j', hk', hj'⟩
      obtain ⟨j, hk, hj⟩ := hba _ _ hk'
      exact ⟨j, hk, hj'.trans hj.symm⟩
  have hnd : ∀ m : JsonMap, (m.map Prod.fst).Nodup → (canonFields m).Nodup := fun m hm =>
    List.Nodup.of_map Prod.fst ((hkeys m).symm ▸ hm)
  have hperm : (canonFields a).Perm (canonFields b) :=
    (List.perm_ext_iff_of_nodup (hnd a ha) (hnd b hb)).2 hmem
  rw [Json.canon, Json.canon]
  congr 1
  refine List.Perm.eq_of_pairwise ?_ (List.pairwise_insertionSort _ _)
    (List.pairwise_insertionSort _ _)
    ((List.perm_insertionSort _ _).trans (hperm.trans (List.perm_insertionSort _ _).symm))
  intro x y hx hy hxy hyx
  rw [List.mem_insertionSort] at hx hy
  have hx' := (hmem x).1 hx
  exact List.inj_on_of_nodup_map ((hkeys b).symm ▸ hb) hx' hy (String.le_antisymm hxy hyx)

/-- **The leaves of a plain value determine it.** -/
theorem Json.Plain.canon_eq {a : Json} (ha : a.Plain) : ∀ {b : Json}, b.Plain →
    (∀ segs v, a.Leaf segs v ↔ b.Leaf segs v) → a.canon = b.canon := by
  induction ha with
  | scalar v =>
      intro b _ h
      have hb := (h [] v).1 (.scalar v)
      cases hb
      rfl
  | @arr elems hne hplain ih =>
      intro b hb h
      cases hb with
      | scalar w => exact nomatch (h [] w).2 (.scalar w)
      | @arr elems' hne' hplain' =>
          have hlen : ∀ i : ℕ, (elems.map Json.canon)[i]? = (elems'.map Json.canon)[i]? := by
            intro i
            rw [List.getElem?_map, List.getElem?_map]
            cases hi : elems[i]? with
            | none =>
                cases hi' : elems'[i]? with
                | none => rfl
                | some j' =>
                    obtain ⟨segs, v, hl⟩ := (hplain' j' (List.mem_of_getElem? hi')).exists_leaf
                    obtain ⟨j, hj, _⟩ := leaf_arr_iff.1 ((h _ _).2 (.elem hi' hl))
                    rw [hi] at hj
                    cases hj
            | some j =>
                obtain ⟨segs, v, hl⟩ := (hplain j (List.mem_of_getElem? hi)).exists_leaf
                obtain ⟨j', hi', _⟩ := leaf_arr_iff.1 ((h _ _).1 (.elem hi hl))
                rw [hi']
                refine congrArg some (ih j (List.mem_of_getElem? hi)
                  (hplain' j' (List.mem_of_getElem? hi')) fun segs v => ?_)
                have hboth := h (Strings.itoa i :: segs) v
                rw [leaf_arr_iff, leaf_arr_iff, hi, hi'] at hboth
                simpa using hboth
          rw [Json.canon, Json.canon, canonList_eq_map, canonList_eq_map, List.ext_getElem? hlen]
      | @obj fields hne' _ hnames hplain' =>
          obtain ⟨segs, v, hl⟩ := (Json.Plain.obj hne' ‹_› hnames hplain').exists_leaf
          have hl' := (h segs v).2 hl
          cases hl with
          | field hk _ =>
              generalize hsegs : _ :: _ = segs' at hl'
              cases hl' with
              | elem => exact absurd (List.cons.inj hsegs).1 ((hnames _ hk).2 _)
  | @obj fields hne hnd hnames hplain ih =>
      intro b hb h
      cases hb with
      | scalar w => exact nomatch (h [] w).2 (.scalar w)
      | @arr elems hne' hplain' =>
          obtain ⟨segs, v, hl⟩ := (Json.Plain.arr hne' hplain').exists_leaf
          have hl' := (h segs v).2 hl
          cases hl with
          | elem hi _ =>
              obtain ⟨j, hk, _⟩ := leaf_obj_iff.1 hl'
              exact absurd rfl ((hnames _ hk).2 _)
      | @obj fields' _ hnd' hnames' hplain' =>
          have ha : PlainMap fields := ⟨hnd, hnames, hplain⟩
          have hb : PlainMap fields' := ⟨hnd', hnames', hplain'⟩
          refine canon_obj_eq hnd hnd' (fun k j hk => ?_) fun k j' hk' => ?_
          · obtain ⟨j', hk', hj⟩ := ha.match_field hb h hk
            exact ⟨j', hk', ih _ hk (hplain' _ hk') hj⟩
          · obtain ⟨j, hk, hj⟩ := hb.match_field ha (fun segs v => (h segs v).symm) hk'
            exact ⟨j, hk, ih _ hk (hplain' _ hk') fun segs v => (hj segs v).symm⟩

theorem PlainMap.plain_obj {m : JsonMap} (hm : PlainMap m) {segs : List String} {v : Scalar}
    (h : (Json.obj m).Leaf segs v) : (Json.obj m).Plain := by
  cases h with
  | field hk _ => exact .obj (List.ne_nil_of_mem hk) hm.nodup hm.names hm.plain

/-- The flattened form of a plain object holds its leaves. -/
theorem PlainMap.valueAt_eq_some {m : JsonMap} (hm : PlainMap m) (path : String) (v : Scalar) :
    (newFromMap m).valueAt path = some v ↔
      ∃ segs, (Json.obj m).Leaf segs v ∧ path = dotted "" segs := by
  have hmem : ∀ w, (path, w) ∈ (newFromMap m).leaves ↔
      ∃ segs, (Json.obj m).Leaf segs w ∧ path = dotted "" segs := fun w =>
    mem_leavesFrom "" path w (.obj m)
  constructor
  · exact fun h => (hmem v).1 (GoMap.mem_of_lastAt h)
  · rintro ⟨segs, hl, hpath⟩
    obtain ⟨w, hw⟩ :=
      Option.ne_none_iff_exists'.1 (GoMap.lastAt_ne_none ((hmem v).2 ⟨segs, hl, hpath⟩))
    obtain ⟨segs', hl', hpath'⟩ := (hmem w).1 (GoMap.mem_of_lastAt hw)
    have hplain := hm.plain_obj hl
    obtain rfl := dotted_injective (hplain.plainSegment hl) (hplain.plainSegment hl')
      (hpath.symm.trans hpath')
    rw [hplain.leaf_unique hl hl']
    exact hw

/-- Plain objects are the same exactly when they have the same leaves. -/
theorem PlainMap.same_iff {a b : JsonMap} (ha : PlainMap a) (hb : PlainMap b) :
    (Json.obj a).Same (.obj b) ↔ ∀ segs v, (Json.obj a).Leaf segs v ↔ (Json.obj b).Leaf segs v := by
  constructor
  · intro h segs v
    rw [← leaf_canon_iff v segs (.obj a), ← leaf_canon_iff v segs (.obj b), h]
  · intro h
    refine canon_obj_eq ha.nodup hb.nodup (fun k j hk => ?_) fun k j' hk' => ?_
    · obtain ⟨j', hk', hj⟩ := ha.match_field hb h hk
      exact ⟨j', hk', (ha.plain _ hk).canon_eq (hb.plain _ hk') hj⟩
    · obtain ⟨j, hk, hj⟩ := hb.match_field ha (fun segs v => (h segs v).symm) hk'
      exact ⟨j, hk, ((hb.plain _ hk').canon_eq (ha.plain _ hk) hj).symm⟩

section

variable [Regexp.UnicodeTables] [R3labsDiff]

/-- **On plain objects a nil difference means the same object.** -/
theorem diff_eq_none_iff_same_of_plain {a b : JsonMap} (ha : PlainMap a) (hb : PlainMap b) :
    (newFromMap a).diff (newFromMap b) = none ↔ (Json.obj a).Same (.obj b) := by
  rw [diff_eq_none_iff, ha.same_iff hb]
  constructor
  · intro h segs v
    constructor
    · intro hl
      have hv := (ha.valueAt_eq_some _ v).2 ⟨segs, hl, rfl⟩
      obtain ⟨segs', hl', hpath⟩ := (hb.valueAt_eq_some _ v).1 ((h _).symm.trans hv)
      rwa [dotted_injective ((ha.plain_obj hl).plainSegment hl)
        ((hb.plain_obj hl').plainSegment hl') hpath]
    · intro hl
      have hv := (hb.valueAt_eq_some _ v).2 ⟨segs, hl, rfl⟩
      obtain ⟨segs', hl', hpath⟩ := (ha.valueAt_eq_some _ v).1 ((h _).trans hv)
      rwa [dotted_injective ((hb.plain_obj hl).plainSegment hl)
        ((ha.plain_obj hl').plainSegment hl') hpath]
  · intro h path
    refine Option.ext fun v => ?_
    rw [ha.valueAt_eq_some, hb.valueAt_eq_some]
    exact exists_congr fun segs => and_congr_left' (h segs v)

end

end Mapnode
end IntegrityShield
