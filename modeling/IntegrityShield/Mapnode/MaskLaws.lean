/-
# Masking twice

`Mask` of `shield/pkg/util/mapnode/node.go` rebuilds every list from the elements it keeps, so an
element behind a removed one moves up, and a second call of `Mask` finds it under another path.
As long as no key is the dotted path of a list element nothing moves: leaving out places in two
rounds is leaving out both at once (`without_without`), and what is left stands where it stood
(`at_without`).  For plain keys the places left out are those whose dotted path is a key
(`covered_plain`), which gives the laws of masking (`mask_append_of_plain`).
-/

import IntegrityShield.Mapnode.Removal

namespace IntegrityShield
namespace Mapnode

/-- `Node.IsValue`: a leaf, be it null. -/
def Node.isValue : Node → Bool
  | .null => true
  | .value _ => true
  | .map _ => false
  | .slice _ => false

mutual

/-- The places of the list elements in the tree at `place`. -/
def Node.elemPlaces (place : Place) : Node → List Place
  | .null => []
  | .value _ => []
  | .map children => fieldElemPlaces place children
  | .slice children => listElemPlaces place 0 children

def fieldElemPlaces (place : Place) : List (String × Node) → List Place
  | [] => []
  | (k, v) :: rest => v.elemPlaces (place ++ [.name k]) ++ fieldElemPlaces place rest

def listElemPlaces (place : Place) (i : ℕ) : List Node → List Place
  | [] => []
  | v :: rest =>
      (place ++ [.index i]) :: v.elemPlaces (place ++ [.index i]) ++
        listElemPlaces place (i + 1) rest

end

section Without

variable {drop drop₁ drop₂ : Place → Bool}

mutual

/-- **Two rounds are one**, if the first leaves the elements of lists where they are. -/
theorem without_without (place : Place) : ∀ t : Node,
    (∀ q ∈ t.elemPlaces place, drop₁ q = false) →
      (t.without drop₁ place).without drop₂ place =
        t.without (fun q => drop₁ q || drop₂ q) place
  | .null, _ => rfl
  | .value _, _ => rfl
  | .map children, h => by
      rw [Node.elemPlaces] at h
      rw [Node.without, Node.without, Node.without,
        withoutFields_withoutFields place children h]
  | .slice children, h => by
      rw [Node.elemPlaces] at h
      rw [Node.without, Node.without, Node.without,
        withoutElems_withoutElems place 0 children h]

theorem withoutFields_withoutFields (place : Place) : ∀ fs : List (String × Node),
    (∀ q ∈ fieldElemPlaces place fs, drop₁ q = false) →
      withoutFields drop₂ place (withoutFields drop₁ place fs) =
        withoutFields (fun q => drop₁ q || drop₂ q) place fs
  | [], _ => rfl
  | (k, v) :: rest, h => by
      rw [fieldElemPlaces, List.forall_mem_append] at h
      have hrest := withoutFields_withoutFields place rest h.2
      have hv := without_without (place ++ [Segment.name k]) v h.1
      rw [withoutFields, withoutFields]
      cases hdrop : drop₁ (place ++ [Segment.name k]) with
      | true => rw [if_pos rfl, if_pos (Bool.true_or _), hrest]
      | false =>
          rw [if_neg Bool.false_ne_true, withoutFields, hrest, hv, Bool.false_or]

theorem withoutElems_withoutElems (place : Place) : ∀ (i : ℕ) (ns : List Node),
    (∀ q ∈ listElemPlaces place i ns, drop₁ q = false) →
      withoutElems drop₂ place i (withoutElems drop₁ place i ns) =
        withoutElems (fun q => drop₁ q || drop₂ q) place i ns
  | _, [], _ => rfl
  | i, v :: rest, h => by
      rw [listElemPlaces, List.forall_mem_append, List.forall_mem_cons] at h
      have hrest := withoutElems_withoutElems place (i + 1) rest h.2
      have hv := without_without (place ++ [Segment.index i]) v h.1.2
      rw [withoutElems, withoutElems, h.1.1, if_neg Bool.false_ne_true, withoutElems, hrest, hv,
        Bool.false_or]

end

theorem mem_withoutFields {place : Place} {fs : List (String × Node)} {k : String} {w : Node} :
    (k, w) ∈ withoutFields drop place fs ↔ ∃ v, (k, v) ∈ fs ∧
      drop (place ++ [.name k]) = false ∧ w = v.without drop (place ++ [.name k]) := by
  induction fs with
  | nil => simp [withoutFields]
  | cons field rest ih =>
      obtain ⟨k', v'⟩ := field
      rw [withoutFields]
      split_ifs with hdrop
      · rw [ih]
        constructor
        · rintro ⟨v, hv, hkeep⟩
          exact ⟨v, List.mem_cons_of_mem _ hv, hkeep⟩
        · rintro ⟨v, hv, hkeep, hw⟩
          rcases List.mem_cons.1 hv with heq | hv
          · cases heq
            exact absurd hdrop (Bool.eq_false_iff.1 hkeep)
          · exact ⟨v, hv, hkeep, hw⟩
      · rw [List.mem_cons, ih]
        constructor
        · rintro (heq | ⟨v, hv, hkeep⟩)
          · cases heq
            exact ⟨v', List.mem_cons_self, Bool.eq_false_iff.2 hdrop, rfl⟩
          · exact ⟨v, List.mem_cons_of_mem _ hv, hkeep⟩
        · rintro ⟨v, hv, hkeep, rfl⟩
          rcases List.mem_cons.1 hv with heq | hv
          · cases heq
            exact Or.inl rfl
          · exact Or.inr ⟨v, hv, hkeep, rfl⟩

/-- Elements that are all kept keep their indices. -/
theorem getElem?_withoutElems {place : Place} {i : ℕ} {ns : List Node}
    (h : ∀ q ∈ listElemPlaces place i ns, drop q = false) (j : ℕ) :
    (withoutElems drop place i ns)[j]? =
      ns[j]?.map fun v => v.without drop (place ++ [.index (i + j)]) := by
  induction ns generalizing i j with
  | nil => rfl
  | cons v rest ih =>
      rw [listElemPlaces, List.forall_mem_append, List.forall_mem_cons] at h
      rw [withoutElems, h.1.1, if_neg Bool.false_ne_true]
      cases j with
      | zero => rfl
      | succ j =>
          rw [List.getElem?_cons_succ, List.getElem?_cons_succ, ih h.2, Nat.add_right_comm,
            Nat.add_assoc]

theorem elemPlaces_field {place : Place} {fs : List (String × Node)} {k : String} {v : Node}
    (hv : (k, v) ∈ fs) : v.elemPlaces (place ++ [.name k]) ⊆ fieldElemPlaces place fs := by
  induction fs with
  | nil => exact absurd hv List.not_mem_nil
  | cons field rest ih =>
      rw [fieldElemPlaces]
      rcases List.mem_cons.1 hv with rfl | hv
      · exact List.subset_append_left _ _
      · exact fun p hp => List.mem_append_right _ (ih hv hp)

theorem elemPlaces_elem {place : Place} {i : ℕ} {ns : List Node} {j : ℕ} {v : Node}
    (hv : ns[j]? = some v) :
    (place ++ [.index (i + j)]) :: v.elemPlaces (place ++ [.index (i + j)]) ⊆
      listElemPlaces place i ns := by
  induction ns generalizing i j with
  | nil => cases hv
  | cons w rest ih =>
      rw [listElemPlaces]
      cases j with
      | zero =>
          obtain rfl := Option.some.inj hv
          exact List.subset_append_left _ _
      | succ j =>
          have hrest := ih (i := i + 1) hv
          rw [Nat.add_right_comm, Nat.add_assoc] at hrest
          exact fun p hp => List.mem_append_right _ (hrest hp)

theorem at_nil {t n : Node} : t.At [] n ↔ n = t := by
  constructor
  · intro h
    cases h
    rfl
  · rintro rfl
    exact .here n

/-- **What is left stands where it stood**: at the places with no dropped place on the way. -/
theorem at_without {t n : Node} {place q : Place} (h : ∀ p ∈ t.elemPlaces place, drop p = false) :
    (t.without drop place).At q n ↔
      ∃ n₀, t.At q n₀ ∧ Reachable drop place q ∧ n = n₀.without drop (place ++ q) := by
  induction q generalizing t place with
  | nil =>
      rw [List.append_nil, at_nil]
      constructor
      · intro hn
        exact ⟨t, .here t, reachable_nil drop place, hn⟩
      · rintro ⟨n₀, hq, _, hn⟩
        rw [hn, at_nil.1 hq]
  | cons s q ih =>
      have happend : place ++ s :: q = place ++ [s] ++ q := (List.append_cons place s q)
      rw [happend, reachable_cons]
      cases t with
      | null =>
          refine iff_of_false (fun hq => by cases hq) ?_
          rintro ⟨_, hq, _⟩
          cases hq
      | value v =>
          refine iff_of_false (fun hq => by cases hq) ?_
          rintro ⟨_, hq, _⟩
          cases hq
      | map children =>
          rw [Node.elemPlaces] at h
          rw [Node.without]
          constructor
          · intro hq
            cases hq with
            | field hk hq =>
                obtain ⟨v, hv, hkeep, rfl⟩ := mem_withoutFields.1 hk
                obtain ⟨n₀, hn₀, hreach, hn⟩ :=
                  (ih fun p hp => h p (elemPlaces_field hv hp)).1 hq
                exact ⟨n₀, .field hv hn₀, ⟨hkeep, hreach⟩, hn⟩
          · rintro ⟨n₀, hq, ⟨hkeep, hreach⟩, hn⟩
            cases hq with
            | field hv hq =>
                refine .field (mem_withoutFields.2 ⟨_, hv, hkeep, rfl⟩) ?_
                exact (ih fun p hp => h p (elemPlaces_field hv hp)).2 ⟨n₀, hq, hreach, hn⟩
      | slice children =>
          rw [Node.elemPlaces] at h
          rw [Node.without]
          have hget := getElem?_withoutElems h
          have hsub : ∀ j v, children[j]? = some v →
              ∀ p ∈ (place ++ [.index j]) :: v.elemPlaces (place ++ [.index j]),
                drop p = false := by
            intro j v hv p hp
            refine h p (elemPlaces_elem hv ?_)
            rwa [Nat.zero_add]
          constructor
          · intro hq
            cases hq with
            | elem hj hq =>
                rw [hget, Nat.zero_add] at hj
                obtain ⟨v, hv, rfl⟩ := Option.map_eq_some_iff.1 hj
                obtain ⟨hkeep, hbelow⟩ := List.forall_mem_cons.1 (hsub _ v hv)
                obtain ⟨n₀, hn₀, hreach, hn⟩ := (ih hbelow).1 hq
                exact ⟨n₀, .elem hv hn₀, ⟨hkeep, hreach⟩, hn⟩
          · rintro ⟨n₀, hq, ⟨hkeep, hreach⟩, hn⟩
            cases hq with
            | elem hv hq =>
                obtain ⟨_, hbelow⟩ := List.forall_mem_cons.1 (hsub _ _ hv)
                refine .elem ?_ ((ih hbelow).2 ⟨n₀, hq, hreach, hn⟩)
                rw [hget, hv, Nat.zero_add]
                rfl

/-- A leaf has nothing below it to leave out. -/
theorem without_of_isValue {n : Node} (h : n.isValue = true) (place : Place) :
    n.without drop place = n := by
  cases n with
  | null => rfl
  | value v => rfl
  | map children => cases h
  | slice children => cases h

theorem isValue_without (n : Node) (place : Place) :
    (n.without drop place).isValue = n.isValue := by
  cases n with
  | null => rfl
  | value v => rfl
  | map children => rw [Node.without]; rfl
  | slice children => rw [Node.without]; rfl

end Without

section Keys

variable [Regexp.UnicodeTables]

/-- Plain keys cover the places whose dotted paths they are. -/
theorem covered_plain {keys : List String} (h : ∀ k ∈ keys, PlainKey k) (q : Place) :
    covered keys q = true ↔ dottedPath q ∈ keys := by
  rw [covered, keyExistsInList_fst, List.any_eq_true]
  constructor
  · rintro ⟨k, hk, hlisted⟩
    by_contra hq
    have hne : dottedPath q ≠ k := fun heq => hq (heq ▸ hk)
    rw [(h k hk).isListed_eq_false hne] at hlisted
    cases hlisted
  · exact fun hq => ⟨_, hq, isListed_self _⟩

theorem covered_append (keys₁ keys₂ : List String) :
    covered (keys₁ ++ keys₂) = fun q => covered keys₁ q || covered keys₂ q := by
  funext q
  rw [covered, covered, covered, keyExistsInList_fst, keyExistsInList_fst, keyExistsInList_fst,
    List.any_append]

theorem mask_plain (t : Node) {keys : List String} (h : ∀ k ∈ keys, PlainKey k) :
    t.mask keys = .ok (t.without (covered keys) [], keys) := by
  have hparsed : keys.map parseConcatKey = keys :=
    (List.map_congr_left fun k hk => (h k hk).parseConcatKey_eq).trans (List.map_id keys)
  have hbrackets : ∀ k ∈ keys, Strings.contains (parseConcatKey k) "[]" = false := by
    intro k hk
    rw [(h k hk).parseConcatKey_eq]
    exact (h k hk).no_brackets
  have hvalid := validateKeyList_of_no_brackets t hbrackets
  rw [hparsed] at hvalid
  exact mask_eq_without hvalid

/-- **Masking composes.**  For plain keys none of which is the dotted path of a list element, masks
may be joined, exchanged and repeated, and the leaves that survive are those none of whose own or
ancestor dotted paths is a key, each at the place where it was. -/
theorem mask_append_of_plain (t : Node) (keys₁ keys₂ : List String)
    (h₁ : ∀ k ∈ keys₁, PlainKey k ∧ k ∉ (t.elemPlaces []).map dottedPath)
    (h₂ : ∀ k ∈ keys₂, PlainKey k ∧ k ∉ (t.elemPlaces []).map dottedPath) :
    ∃ t₁ t₂ t₁₂, t.mask keys₁ = .ok (t₁, keys₁) ∧ t.mask keys₂ = .ok (t₂, keys₂) ∧
      t.mask (keys₁ ++ keys₂) = .ok (t₁₂, keys₁ ++ keys₂) ∧
      t₁.mask keys₂ = .ok (t₁₂, keys₂) ∧ t₂.mask keys₁ = .ok (t₁₂, keys₁) ∧
      t₁.mask keys₁ = .ok (t₁, keys₁) ∧
      ∀ q n, n.isValue = true →
        (t₁.At q n ↔ t.At q n ∧ ∀ p, p <+: q → dottedPath p ∉ keys₁) := by
  have hplain₁ : ∀ k ∈ keys₁, PlainKey k := fun k hk => (h₁ k hk).1
  have hplain₂ : ∀ k ∈ keys₂, PlainKey k := fun k hk => (h₂ k hk).1
  have hstay : ∀ keys, (∀ k ∈ keys, PlainKey k ∧ k ∉ (t.elemPlaces []).map dottedPath) →
      ∀ q ∈ t.elemPlaces [], covered keys q = false := by
    intro keys h q hq
    rw [← Bool.not_eq_true, covered_plain fun k hk => (h k hk).1]
    exact fun hmem => (h _ hmem).2 (List.mem_map_of_mem hq)
  have htwice : ∀ keys keys', (∀ k ∈ keys', PlainKey k) →
      (∀ k ∈ keys, PlainKey k ∧ k ∉ (t.elemPlaces []).map dottedPath) →
        (t.without (covered keys) []).mask keys' =
          .ok (t.without (fun q => covered keys q || covered keys' q) [], keys') := by
    intro keys keys' hplain h
    rw [mask_plain _ hplain, without_without [] t (hstay keys h)]
  refine ⟨t.without (covered keys₁) [], t.without (covered keys₂) [],
    t.without (fun q => covered keys₁ q || covered keys₂ q) [], mask_plain t hplain₁,
    mask_plain t hplain₂, ?_, htwice _ _ hplain₂ h₁, ?_, ?_, fun q n hn => ?_⟩
  · rw [← covered_append]
    exact mask_plain t fun k hk => (List.mem_append.1 hk).elim (hplain₁ k) (hplain₂ k)
  · rw [htwice _ _ hplain₁ h₂, funext fun q => Bool.or_comm (covered keys₂ q) (covered keys₁ q)]
  · rw [htwice _ _ hplain₁ h₁, funext fun q => Bool.or_self (covered keys₁ q)]
  · rw [at_without (hstay keys₁ h₁)]
    have hpath : ∀ p : Place, covered keys₁ p = false ↔ dottedPath p ∉ keys₁ := fun p => by
      rw [← Bool.not_eq_true, covered_plain hplain₁]
    constructor
    · rintro ⟨n₀, hq, hreach, rfl⟩
      rw [isValue_without] at hn
      rw [without_of_isValue hn]
      refine ⟨hq, fun p hp => ?_⟩
      by_cases hne : p = []
      · -- the path of the root is empty, and no key is
        rw [hne]
        exact fun hmem => (hplain₁ _ hmem).1 rfl
      · exact (hpath p).1 (hreach p hne hp)
    · rintro ⟨hq, hpaths⟩
      refine ⟨n, hq, fun p _ hp => (hpath _).2 (hpaths p hp), (without_of_isValue hn _).symm⟩

end Keys

/-- An object with a list, and the keys of two of its entries. -/
theorem mask_append_metadata :
    letI := Regexp.UnicodeTables.empty
    let t : Node := .map [
      ("metadata", .map [("uid", .value (.str "u")),
        ("labels", .map [("app", .value (.str "a"))])]),
      ("spec", .map [("args", .slice [.value (.str "x"), .null])])]
    ∃ t₁ t₂ t₁₂, t.mask ["metadata.uid"] = .ok (t₁, ["metadata.uid"]) ∧
      t.mask ["metadata.labels"] = .ok (t₂, ["metadata.labels"]) ∧
      t.mask ["metadata.uid", "metadata.labels"] =
        .ok (t₁₂, ["metadata.uid", "metadata.labels"]) ∧
      t₁.mask ["metadata.labels"] = .ok (t₁₂, ["metadata.labels"]) ∧
      t₂.mask ["metadata.uid"] = .ok (t₁₂, ["metadata.uid"]) ∧
      t₁.mask ["metadata.uid"] = .ok (t₁, ["metadata.uid"]) ∧
      ∀ q n, n.isValue = true →
        (t₁.At q n ↔ t.At q n ∧ ∀ p, p <+: q → dottedPath p ∉ ["metadata.uid"]) :=
  let _ := Regexp.UnicodeTables.empty
  mask_append_of_plain _ ["metadata.uid"] ["metadata.labels"] (by decide +kernel)
    (by decide +kernel)

end Mapnode
end IntegrityShield
