/-
# Writing an entry of a map

What becomes of the checks on an object when an entry of one of its maps is written.  The
leaves of the map change at the paths of the entry only (`lastAt_keptFieldLeaves_setField`),
and so for an entry of an entry.

A mask key without quotes is expanded by asking for places whose names have no dot and
whose last name is an index.  Two trees that have the same of these places
(`Node.SamePlaces`) expand such keys alike (`validateKeyList_congr`), so writing entries
whose names have dots does not change what a mask covers.
-/

import IntegrityShield.Mapnode.KeyExpansion

namespace IntegrityShield
namespace Mapnode

/-! ## Writing an entry -/

section SetField

variable {α : Type}

/-- An entry is given a value: it is replaced where it stands, or added at the end. -/
def setField (name : String) (value : α) : List (String × α) → List (String × α)
  | [] => [(name, value)]
  | (k, v) :: rest =>
      if k = name then (name, value) :: rest else (k, v) :: setField name value rest

theorem lookup_cons_eq_ite (k name : String) (v : α) (rest : List (String × α)) :
    ((k, v) :: rest).lookup name = if name = k then some v else rest.lookup name := by
  by_cases h : name = k
  · rw [if_pos h, h, List.lookup_cons, beq_self_eq_true]
  · rw [if_neg h, List.lookup_cons, beq_false_of_ne h]

theorem lookup_setField (name other : String) (value : α) (fields : List (String × α)) :
    (setField name value fields).lookup other =
      if other = name then some value else fields.lookup other := by
  induction fields with
  | nil => exact lookup_cons_eq_ite name other value []
  | cons f rest ih =>
      obtain ⟨k, v⟩ := f
      rw [setField, lookup_cons_eq_ite]
      by_cases hk : k = name
      · rw [if_pos hk, lookup_cons_eq_ite, hk]
        split_ifs <;> rfl
      · rw [if_neg hk, lookup_cons_eq_ite, ih]
        split_ifs with hother hname
        · exact absurd (hother.symm.trans hname) hk
        · rfl
        · rfl
        · rfl

theorem setField_setField (name : String) (value value' : α) (fields : List (String × α)) :
    setField name value' (setField name value fields) = setField name value' fields := by
  induction fields with
  | nil => simp [setField]
  | cons f rest ih =>
      by_cases hk : f.1 = name <;> simp [setField, hk, ih]

theorem setField_of_lookup {name : String} {value : α} {fields : List (String × α)}
    (h : fields.lookup name = some value) : setField name value fields = fields := by
  induction fields with
  | nil => cases h
  | cons f rest ih =>
      obtain ⟨k, v⟩ := f
      rw [lookup_cons_eq_ite] at h
      by_cases hk : k = name
      · rw [if_pos hk.symm] at h
        rw [setField, if_pos hk, hk, Option.some.inj h]
      · rw [if_neg (Ne.symm hk)] at h
        rw [setField, if_neg hk, ih h]

end SetField

theorem lookup_newFields (fields : List (String × Json)) (name : String) :
    (newFields fields).lookup name = (fields.lookup name).map newNode := by
  induction fields with
  | nil => rfl
  | cons f rest ih =>
      obtain ⟨k, j⟩ := f
      rw [newFields, lookup_cons_eq_ite, lookup_cons_eq_ite, ih]
      split_ifs <;> rfl

theorem newFields_setField (name : String) (value : Json) (fields : List (String × Json)) :
    newFields (setField name value fields) = setField name (newNode value) (newFields fields) := by
  induction fields with
  | nil => rfl
  | cons f rest ih =>
      obtain ⟨k, j⟩ := f
      by_cases hk : k = name
      · rw [setField, if_pos hk, newFields, newFields, setField, if_pos hk]
      · rw [setField, if_neg hk, newFields, newFields, setField, if_neg hk, ih]

theorem childKey_injective (path : String) : Function.Injective (childKey path) := by
  intro k k' h
  rw [childKey, childKey] at h
  split_ifs at h
  · exact h
  · have hlist := congrArg String.toList h
    simp only [String.toList_append] at hlist
    exact String.toList_inj.1 (List.append_cancel_left hlist)

/-! ## The leaves below an entry -/

section Leaves

variable (dropped : String → Bool) (path place : String)

/-- **Writing an entry changes the values below it only.**  At a path where the new entry
shows what the old one did, the map does too.  An absent entry has the leaves of a null. -/
theorem lastAt_keptFieldLeaves_setField {name : String} {value : Node}
    {fields : List (String × Node)} {k : String}
    (h : dropped (childKey path name) = false →
      GoMap.lastAt (value.keptLeavesFrom dropped (childKey path name) (childKey place name)) k =
        GoMap.lastAt (((fields.lookup name).getD .null).keptLeavesFrom dropped (childKey path name)
          (childKey place name)) k) :
    GoMap.lastAt (keptFieldLeaves dropped path place (setField name value fields)) k =
      GoMap.lastAt (keptFieldLeaves dropped path place fields) k := by
  induction fields with
  | nil =>
      rw [setField, keptFieldLeaves, keptFieldLeaves, keptFieldLeaves, List.append_nil]
      split_ifs with hdrop
      · rfl
      · exact h (Bool.eq_false_iff.2 hdrop)
  | cons f rest ih =>
      obtain ⟨other, v⟩ := f
      rw [lookup_cons_eq_ite] at h
      by_cases hname : other = name
      · subst hname
        rw [if_pos rfl, Option.getD_some] at h
        rw [setField, if_pos rfl, keptFieldLeaves, keptFieldLeaves, GoMap.lastAt_append,
          GoMap.lastAt_append]
        congr 1
        split_ifs with hdrop
        · rfl
        · exact h (Bool.eq_false_iff.2 hdrop)
      · rw [if_neg (Ne.symm hname)] at h
        rw [setField, if_neg hname, keptFieldLeaves, keptFieldLeaves, GoMap.lastAt_append,
          GoMap.lastAt_append, ih h]

/-- The fields of a map of strings. -/
def stringFields (entries : List (String × String)) : List (String × Json) :=
  entries.map fun e => (e.1, .scalar (.str e.2))

theorem newFields_stringFields (entries : List (String × String)) :
    newFields (stringFields entries) = entries.map fun e => (e.1, .value (.str e.2)) := by
  induction entries with
  | nil => rfl
  | cons e rest ih => rw [stringFields, List.map_cons, newFields, ← stringFields, ih]; rfl

/-- A node that holds strings: a null holds none. -/
inductive Node.HoldsStrings : Node → List (String × String) → Prop
  | null : Node.HoldsStrings .null []
  | map (entries : List (String × String)) :
      Node.HoldsStrings (.map (newFields (stringFields entries))) entries

variable {t : Node} {entries : List (String × String)}

theorem Node.HoldsStrings.keptLeavesFrom_eq (h : t.HoldsStrings entries) :
    t.keptLeavesFrom dropped path place =
      (entries.filter fun e => !dropped (childKey path e.1)).map fun e =>
        (childKey place e.1, Scalar.str e.2) := by
  cases h with
  | null => rfl
  | map =>
      rw [Node.keptLeavesFrom, newFields_stringFields]
      induction entries with
      | nil => rfl
      | cons e rest ih =>
          rw [List.map_cons, keptFieldLeaves, ih, List.filter_cons, Node.keptLeavesFrom]
          cases dropped (childKey path e.1) <;> rfl

/-- What a node that holds strings shows at the path of a name: the last string there,
unless the name is dropped. -/
theorem Node.HoldsStrings.lastAt_eq (h : t.HoldsStrings entries) (name : String) :
    GoMap.lastAt (t.keptLeavesFrom dropped path place) (childKey place name) =
      if dropped (childKey path name) then none else (GoMap.lastAt entries name).map .str := by
  rw [h.keptLeavesFrom_eq]
  clear h
  induction entries with
  | nil => exact (ite_self none).symm
  | cons e rest ih =>
      have hkey : childKey place e.1 = childKey place name ↔ e.1 = name :=
        (childKey_injective place).eq_iff
      rw [List.filter_cons, GoMap.lastAt_cons e]
      by_cases hname : e.1 = name
      · rw [if_pos hname, hname]
        cases hdrop : dropped (childKey path name) with
        | true => simpa [hdrop] using ih
        | false =>
            rw [hdrop] at ih
            simp only [Bool.not_false, if_true, List.map_cons, GoMap.lastAt_cons, ih, hname]
            cases GoMap.lastAt rest name <;> rfl
      · rw [if_neg hname, Option.or_none, ← ih]
        split_ifs
        · rw [List.map_cons, GoMap.lastAt_cons, if_neg (mt hkey.1 hname), Option.or_none]
        · rfl

/-- It has no leaf at other paths. -/
theorem Node.HoldsStrings.lastAt_of_ne (h : t.HoldsStrings entries) {k : String}
    (hk : ∀ name, k ≠ childKey place name) :
    GoMap.lastAt (t.keptLeavesFrom dropped path place) k = none := by
  rw [h.keptLeavesFrom_eq]
  by_contra hsome
  obtain ⟨v, hv⟩ := Option.ne_none_iff_exists'.1 hsome
  obtain ⟨e, _, he⟩ := List.mem_map.1 (GoMap.mem_of_lastAt hv)
  exact hk e.1 (Prod.mk.inj he).1.symm

/-- Two nodes that hold strings show the same at a path, unless they keep the name there and
hold different strings under it. -/
theorem Node.HoldsStrings.lastAt_congr {t' : Node} {entries' : List (String × String)}
    (h : t.HoldsStrings entries) (h' : t'.HoldsStrings entries') {k : String}
    (hsame : ∀ name, k = childKey place name → dropped (childKey path name) = false →
      GoMap.lastAt entries name = GoMap.lastAt entries' name) :
    GoMap.lastAt (t.keptLeavesFrom dropped path place) k =
      GoMap.lastAt (t'.keptLeavesFrom dropped path place) k := by
  by_cases hk : ∃ name, k = childKey place name
  · obtain ⟨name, rfl⟩ := hk
    rw [h.lastAt_eq, h'.lastAt_eq]
    split_ifs with hdrop
    · rfl
    · rw [hsame name rfl (Bool.eq_false_iff.2 hdrop)]
  · rw [h.lastAt_of_ne dropped path place (not_exists.1 hk),
      h'.lastAt_of_ne dropped path place (not_exists.1 hk)]

end Leaves

/-! ## The places that an expansion asks for -/

/-- Two trees have the same places among those with an index as their last name and no dot
in the names before it. -/
def Node.SamePlaces (t t' : Node) : Prop :=
  ∀ (names : List String) (x : ℕ), (∀ name ∈ names, '.' ∉ name.toList) →
    ((names ++ [Strings.itoa x]).foldlM Node.getChild t).isSome =
      ((names ++ [Strings.itoa x]).foldlM Node.getChild t').isSome

theorem foldlM_getChild_null {names : List String} (h : names ≠ []) :
    names.foldlM Node.getChild Node.null = none := by
  cases names with
  | nil => exact absurd rfl h
  | cons name rest => rfl

/-- Writing an entry whose name is no index adds and removes places below it only. -/
theorem samePlaces_setField {name : String} {value : Node} {fields : List (String × Node)}
    (hname : ∀ x, Strings.itoa x ≠ name)
    (h : ((fields.lookup name).getD .null).SamePlaces value) :
    (Node.map fields).SamePlaces (.map (setField name value fields)) := by
  intro names x hdots
  cases names with
  | nil =>
      rw [List.nil_append, List.foldlM_cons, List.foldlM_cons, Node.getChild, Node.getChild,
        lookup_setField, if_neg (hname x)]
  | cons first rest =>
      have hrest := h rest x fun n hn => hdots n (List.mem_cons_of_mem first hn)
      rw [List.cons_append, List.foldlM_cons, List.foldlM_cons, Node.getChild, Node.getChild,
        lookup_setField]
      by_cases hfirst : first = name
      · rw [if_pos hfirst, hfirst]
        refine Eq.trans ?_ hrest
        cases fields.lookup name with
        | some child => rfl
        | none =>
            rw [Option.getD_none, foldlM_getChild_null (List.append_ne_nil_of_right_ne_nil _
              (List.cons_ne_nil _ _))]
            rfl
      · rw [if_neg hfirst]

theorem Node.HoldsStrings.getChild_eq {t : Node} {entries : List (String × String)}
    (h : t.HoldsStrings entries) (name : String) :
    t.getChild name = (entries.lookup name).map fun s => .value (.str s) := by
  cases h with
  | null => rfl
  | map =>
      rw [Node.getChild, newFields_stringFields]
      induction entries with
      | nil => rfl
      | cons e rest ih =>
          obtain ⟨k, s⟩ := e
          rw [List.map_cons, lookup_cons_eq_ite, ih, lookup_cons_eq_ite]
          split_ifs <;> rfl

theorem isSome_lookup_eq_lastAt {α : Type} (entries : List (String × α)) (name : String) :
    (entries.lookup name).isSome = (GoMap.lastAt entries name).isSome := by
  induction entries with
  | nil => rfl
  | cons e rest ih =>
      obtain ⟨k, v⟩ := e
      rw [lookup_cons_eq_ite, GoMap.lastAt_cons, Option.isSome_or, ← ih]
      by_cases h : name = k
      · rw [if_pos h, if_pos h.symm, Option.isSome_some, Bool.or_true]
      · rw [if_neg h, if_neg (Ne.symm h), Option.isSome_none, Bool.or_false]

/-- Two nodes that hold strings have the same places when they hold strings under the same
names without dots. -/
theorem Node.HoldsStrings.samePlaces {t t' : Node} {entries entries' : List (String × String)}
    (h : t.HoldsStrings entries) (h' : t'.HoldsStrings entries')
    (hsame : ∀ name, '.' ∉ name.toList →
      (GoMap.lastAt entries name).isSome = (GoMap.lastAt entries' name).isSome) :
    t.SamePlaces t' := by
  -- a string has no places below it
  have hbelow : ∀ {t : Node} {entries : List (String × String)}, t.HoldsStrings entries →
      ∀ first rest, rest ≠ [] → (first :: rest).foldlM Node.getChild t = none := by
    intro t entries h first rest hrest
    obtain ⟨second, rest, rfl⟩ := List.exists_cons_of_ne_nil hrest
    rw [List.foldlM_cons, h.getChild_eq]
    cases entries.lookup first <;> rfl
  intro names x _
  cases names with
  | nil =>
      have hname := hsame (Strings.itoa x) (not_mem_itoa (by decide) x)
      rw [← isSome_lookup_eq_lastAt, ← isSome_lookup_eq_lastAt] at hname
      simp only [List.nil_append, List.foldlM_cons, List.foldlM_nil, bind_pure, h.getChild_eq,
        h'.getChild_eq, Option.isSome_map, hname]
  | cons first rest =>
      have hne : rest ++ [Strings.itoa x] ≠ [] :=
        List.append_ne_nil_of_right_ne_nil _ (List.cons_ne_nil _ _)
      rw [List.cons_append, hbelow h first _ hne, hbelow h' first _ hne]

/-- The names of a key without quotes have no dots. -/
theorem dot_not_mem_of_mem_splitConcatKey {key name : String} (hquote : '"' ∉ key.toList)
    (h : name ∈ splitConcatKey key) : '.' ∉ name.toList := by
  intro hdot
  rw [splitConcatKey_eq hquote] at h
  obtain ⟨part, hpart, hname⟩ := List.mem_flatMap.1 h
  obtain ⟨cs, hcs, rfl⟩ := List.mem_map.1 hpart
  have hmem := mem_of_mem_parseName hname hdot
  rw [String.toList_ofList] at hmem
  exact (Strings.mem_of_mem_splitOn hcs hmem).2 rfl

/-- Trees with the same places answer the loop alike. -/
theorem keyExists_congr {t t' : Node} (h : t.SamePlaces t') {stem : String}
    (hquote : '"' ∉ stem.toList) (x : ℕ) :
    t.keyExists (stem ++ "." ++ Strings.itoa x) = t'.keyExists (stem ++ "." ++ Strings.itoa x) := by
  rw [Node.keyExists, Node.keyExists, Node.getNode, Node.getNode,
    splitConcatKey_append hquote (plainField_itoa x).quote_not_mem, splitConcatKey_itoa]
  exact h _ x fun name hname => dot_not_mem_of_mem_splitConcatKey hquote hname

/-- Behind a text without quotes both count to the same index. -/
theorem generateKeyList_congr {t t' : Node} (h : t.SamePlaces t') {key : String}
    (hquote : '"' ∉ key.toList) : t.generateKeyList key = t'.generateKeyList key := by
  cases hwild : wildcards key with
  | zero =>
      have hno := not_contains_brackets hwild
      rw [Node.generateKeyList, if_neg hno, Node.generateKeyList, if_neg hno]
  | succ n =>
      have hplace : ∀ x, t.placeExists (keyParts key) (countedIndices n x) =
          t'.placeExists (keyParts key) (countedIndices n x) := by
        intro x
        rw [placeExists_counted hwild, placeExists_counted hwild]
        exact keyExists_congr h (quote_not_mem_checkStem hquote n) x
      obtain ⟨m, hmissing, hexists, hkeys⟩ := generateKeyList_of_no_quote hwild hquote t
      obtain ⟨m', hmissing', hexists', hkeys'⟩ := generateKeyList_of_no_quote hwild hquote t'
      have hle : m' ≤ m := by
        by_contra! hlt
        rw [hplace, hexists' m hlt] at hmissing
        cases hmissing
      have hge : m ≤ m' := by
        by_contra! hlt
        rw [← hplace, hexists m' hlt] at hmissing'
        cases hmissing'
      rw [hkeys, hkeys', le_antisymm hge hle]

theorem validateKeyList_of_concreteKeys {t t' : Node} {keys : List String}
    (h : ∀ k ∈ keys, t.concreteKeys (parseConcatKey k) = t'.concreteKeys (parseConcatKey k)) :
    t.validateKeyList keys = t'.validateKeyList keys := by
  have hmapM : (keys.map parseConcatKey).mapM t.concreteKeys =
      (keys.map parseConcatKey).mapM t'.concreteKeys := by
    induction keys with
    | nil => rw [List.map_nil, List.mapM_nil, List.mapM_nil]
    | cons k rest ih =>
        rw [List.map_cons, List.mapM_cons, List.mapM_cons, h k List.mem_cons_self,
          ih fun k' hk' => h k' (List.mem_cons_of_mem k hk')]
  rw [Node.validateKeyList, Node.validateKeyList, hmapM]

/-- **Trees with the same places expand a mask alike**, if its keys have no quotes. -/
theorem validateKeyList_congr {t t' : Node} (h : t.SamePlaces t') {keys : List String}
    (hquote : ∀ k ∈ keys, '"' ∉ k.toList) : t.validateKeyList keys = t'.validateKeyList keys := by
  refine validateKeyList_of_concreteKeys fun k hk => ?_
  have hno := not_mem_parseConcatKey (by decide) (hquote k hk)
  rw [Node.concreteKeys, Node.concreteKeys, generateKeyList_congr h hno]

/-! ## Another value at a leaf -/

/-- Two trees have as many nodes, and the same places. -/
structure Node.SameShape (t t' : Node) : Prop where
  nodes_eq : t.nodes = t'.nodes
  places_eq : ∀ names : List String,
    (names.foldlM Node.getChild t).isSome = (names.foldlM Node.getChild t').isSome

theorem sameShape_value (v v' : Scalar) : (Node.value v).SameShape (.value v') := by
  refine ⟨rfl, fun names => ?_⟩
  cases names <;> rfl

theorem fieldNodes_setField {name : String} {child value : Node} {fields : List (String × Node)}
    (hchild : fields.lookup name = some child) (h : child.nodes = value.nodes) :
    fieldNodes fields = fieldNodes (setField name value fields) := by
  induction fields with
  | nil => cases hchild
  | cons f rest ih =>
      obtain ⟨other, v⟩ := f
      rw [lookup_cons_eq_ite] at hchild
      by_cases hname : other = name
      · rw [if_pos hname.symm] at hchild
        rw [setField, if_pos hname, fieldNodes, fieldNodes, Option.some.inj hchild, h]
      · rw [if_neg (Ne.symm hname)] at hchild
        rw [setField, if_neg hname, fieldNodes, fieldNodes, ih hchild]

theorem sameShape_setField {name : String} {child value : Node} {fields : List (String × Node)}
    (hchild : fields.lookup name = some child) (h : child.SameShape value) :
    (Node.map fields).SameShape (.map (setField name value fields)) := by
  refine ⟨congrArg (1 + ·) (fieldNodes_setField hchild h.nodes_eq), fun names => ?_⟩
  cases names with
  | nil => rfl
  | cons first rest =>
      rw [List.foldlM_cons, List.foldlM_cons, Node.getChild, Node.getChild, lookup_setField]
      by_cases hfirst : first = name
      · rw [if_pos hfirst, hfirst, hchild]
        exact h.places_eq rest
      · rw [if_neg hfirst]

/-- **Trees of the same shape expand every mask alike.** -/
theorem Node.SameShape.validateKeyList_eq {t t' : Node} (h : t.SameShape t') (keys : List String) :
    t.validateKeyList keys = t'.validateKeyList keys := by
  have hexists : ∀ key, t.keyExists key = t'.keyExists key := fun key => h.places_eq _
  have hrounds : ∀ (parts : List String) (fuel : ℕ) (indexList : List ℕ) (finished : List Bool),
      keyRounds t parts fuel indexList finished = keyRounds t' parts fuel indexList finished := by
    intro parts fuel
    induction fuel with
    | zero => exact fun _ _ => rfl
    | succ fuel ih =>
        intro indexList finished
        rw [keyRounds, keyRounds]
        simp only [hexists, ih]
  refine validateKeyList_of_concreteKeys fun k _ => ?_
  rw [Node.concreteKeys, Node.concreteKeys, Node.generateKeyList, Node.generateKeyList, h.nodes_eq]
  simp only [hrounds]

section Follows

variable {ι : Type*}

/-- What is shown is the value `G i`, or does not depend on `i`. -/
def Follows (F : ι → Option Scalar) (G : ι → Scalar) : Prop :=
  (∀ i, F i = some (G i)) ∨ ∀ i j, F i = F j

theorem follows_const (v : Option Scalar) (G : ι → Scalar) : Follows (fun _ => v) G :=
  Or.inr fun _ _ => rfl

/-- Earlier leaves do not hide a value. -/
theorem Follows.or {F : ι → Option Scalar} {G : ι → Scalar} (h : Follows F G) (v : Option Scalar) :
    Follows (fun i => (F i).or v) G := by
  rcases h with hshown | hsame
  · exact Or.inl fun i => by simp only [hshown i, Option.some_or]
  · exact Or.inr fun i j => by simp only [hsame i j]

/-- A later leaf does. -/
theorem Follows.after {F : ι → Option Scalar} {G : ι → Scalar} (h : Follows F G)
    (v : Option Scalar) : Follows (fun i => v.or (F i)) G := by
  cases v with
  | none => simpa only [Option.none_or] using h
  | some v => simpa only [Option.some_or] using follows_const (some v) G

/-- **What a map shows at a path follows an entry**, as far as the entry itself does. -/
theorem follows_setField (dropped : String → Bool) (path place : String) {name : String}
    {value : ι → Node} {G : ι → Scalar} {k : String}
    (h : Follows (fun i => GoMap.lastAt ((value i).keptLeavesFrom dropped (childKey path name)
      (childKey place name)) k) G) (fields : List (String × Node)) :
    Follows (fun i => GoMap.lastAt (keptFieldLeaves dropped path place
      (setField name (value i) fields)) k) G := by
  have hentry : Follows (fun i => GoMap.lastAt (if dropped (childKey path name) then []
      else (value i).keptLeavesFrom dropped (childKey path name) (childKey place name)) k) G := by
    split_ifs
    · exact follows_const none G
    · exact h
  induction fields with
  | nil => simpa only [setField, keptFieldLeaves, List.append_nil] using hentry
  | cons f rest ih =>
      obtain ⟨other, v⟩ := f
      by_cases hname : other = name
      · simp only [setField, hname, if_true, keptFieldLeaves, GoMap.lastAt_append]
        exact hentry.after _
      · simp only [setField, hname, if_false, keptFieldLeaves, GoMap.lastAt_append]
        exact ih.or _

end Follows

end Mapnode
end IntegrityShield
