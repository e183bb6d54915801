/-
# What masking removes

`Mask` of `shield/pkg/util/mapnode/node.go` walks a tree and leaves out every entry and list
element whose dotted path a key covers.  Here a place is a list of names and indices, and
masking is leaving out places: `t.without drop` is the tree without the places that satisfy
`drop` (`mask_eq_without`), and the leaves that are left are those with no such place on the
way to them (`mem_keptLeaves`).

What a key covers is decided on texts.  A key is parsed, its wildcards are expanded, and the
results are compared with dotted paths; `Node.Spells` says which texts these are.  A key is
meant to denote places (`Denotes`): names between dots, a quoted name standing for itself,
`[n]` for an index and `[]` for any.  `mask_removes_denoted_iff` says for which trees and keys
only places that a key denotes are removed.  A key that the CSV reader rejects is spelled like
the empty text, which covers everything; a dot inside a name is not told apart from one between
names.  For plain objects and keys there is no difference (`mask_removes_denoted_of_plain`).
-/

import IntegrityShield.Mapnode.KeyExpansion

namespace IntegrityShield
namespace Mapnode

/-! ## Places -/

/-- A step into a tree: to the entry of a name or to the element at an index. -/
inductive Segment where
  | name (s : String)
  | index (i : ℕ)
deriving DecidableEq

/-- A segment as it is written in a dotted path. -/
def Segment.text : Segment → String
  | .name s => s
  | .index i => Strings.itoa i

/-- A place in a tree, from the root. -/
abbrev Place := List Segment

/-- The dotted path of a place. -/
def dottedPath (q : Place) : String := dotted "" (q.map Segment.text)

theorem dottedPath_concat (q : Place) (s : Segment) :
    dottedPath (q ++ [s]) = childKey (dottedPath q) s.text := by
  rw [dottedPath, List.map_append, dotted, List.foldl_append]
  rfl

/-- The node at a place. -/
inductive Node.At : Node → Place → Node → Prop
  | here (t : Node) : Node.At t [] t
  | field {children : List (String × Node)} {k : String} {v t : Node} {q : Place} :
      (k, v) ∈ children → Node.At v q t → Node.At (.map children) (.name k :: q) t
  | elem {children : List Node} {i : ℕ} {v t : Node} {q : Place} :
      children[i]? = some v → Node.At v q t → Node.At (.slice children) (.index i :: q) t

/-- A place in a map begins with one of its names. -/
theorem Node.At.exists_field {children : List (String × Node)} {q : Place} {t : Node}
    (h : (Node.map children).At q t) (hne : q ≠ []) :
    ∃ k v q', (k, v) ∈ children ∧ q = .name k :: q' ∧ v.At q' t := by
  cases h with
  | here => exact absurd rfl hne
  | field hk hq => exact ⟨_, _, _, hk, rfl, hq⟩

/-! ## Leaving places out -/

mutual

/-- The tree at `place` without the places below it that satisfy `drop`. -/
def Node.without (drop : Place → Bool) (place : Place) : Node → Node
  | .null => .null
  | .value v => .value v
  | .map children => .map (withoutFields drop place children)
  | .slice children => .slice (withoutElems drop place 0 children)

def withoutFields (drop : Place → Bool) (place : Place) :
    List (String × Node) → List (String × Node)
  | [] => []
  | (k, v) :: rest =>
      if drop (place ++ [.name k]) then withoutFields drop place rest
      else (k, v.without drop (place ++ [.name k])) :: withoutFields drop place rest

def withoutElems (drop : Place → Bool) (place : Place) (i : ℕ) : List Node → List Node
  | [] => []
  | v :: rest =>
      if drop (place ++ [.index i]) then withoutElems drop place (i + 1) rest
      else v.without drop (place ++ [.index i]) :: withoutElems drop place (i + 1) rest

end

mutual

/-- The leaves of the tree at `place` that have no dropped place on the way to them, with the
places they had before. -/
def Node.keptLeaves (drop : Place → Bool) (place : Place) : Node → List (Place × Scalar)
  | .null => []
  | .value v => [(place, v)]
  | .map children => keptFields drop place children
  | .slice children => keptElems drop place 0 children

def keptFields (drop : Place → Bool) (place : Place) :
    List (String × Node) → List (Place × Scalar)
  | [] => []
  | (k, v) :: rest =>
      (if drop (place ++ [.name k]) then [] else v.keptLeaves drop (place ++ [.name k])) ++
        keptFields drop place rest

def keptElems (drop : Place → Bool) (place : Place) (i : ℕ) : List Node → List (Place × Scalar)
  | [] => []
  | v :: rest =>
      (if drop (place ++ [.index i]) then [] else v.keptLeaves drop (place ++ [.index i])) ++
        keptElems drop place (i + 1) rest

end

mutual

/-- The values of the leaves that are left, in order. -/
theorem leaves_without (drop : Place → Bool) (place : Place) (path : String) : ∀ t : Node,
    ((t.without drop place).leavesFrom path).map Prod.snd =
      (t.keptLeaves drop place).map Prod.snd
  | .null => rfl
  | .value _ => rfl
  | .map children => by
      rw [Node.without, Node.leavesFrom, Node.keptLeaves,
        fieldLeaves_withoutFields drop place path children]
  | .slice children => by
      rw [Node.without, Node.leavesFrom, Node.keptLeaves,
        elemLeaves_withoutElems drop place path 0 0 children]

theorem fieldLeaves_withoutFields (drop : Place → Bool) (place : Place) (path : String) :
    ∀ fs : List (String × Node),
      (fieldLeaves path (withoutFields drop place fs)).map Prod.snd =
        (keptFields drop place fs).map Prod.snd
  | [] => rfl
  | (k, v) :: rest => by
      have hrest := fieldLeaves_withoutFields drop place path rest
      rw [withoutFields, keptFields]
      split
      · exact hrest
      · rw [fieldLeaves, List.map_append, List.map_append, hrest,
          leaves_without drop (place ++ [Segment.name k]) _ v]

theorem elemLeaves_withoutElems (drop : Place → Bool) (place : Place) (path : String) :
    ∀ (i j : ℕ) (ns : List Node),
      (elemLeaves path j (withoutElems drop place i ns)).map Prod.snd =
        (keptElems drop place i ns).map Prod.snd
  | _, _, [] => rfl
  | i, j, v :: rest => by
      rw [withoutElems, keptElems]
      split
      · exact elemLeaves_withoutElems drop place path (i + 1) j rest
      · rw [elemLeaves, List.map_append, List.map_append,
          elemLeaves_withoutElems drop place path (i + 1) (j + 1) rest,
          leaves_without drop (place ++ [Segment.index i]) _ v]

end

/-- No place on the way from `place` to a place below it is dropped. -/
def Reachable (drop : Place → Bool) (place q : Place) : Prop :=
  ∀ r, r ≠ [] → r <+: q → drop (place ++ r) = false

theorem reachable_nil (drop : Place → Bool) (place : Place) : Reachable drop place [] := by
  intro r hr hprefix
  exact absurd (List.prefix_nil.1 hprefix) hr

theorem reachable_cons {drop : Place → Bool} {place q : Place} {s : Segment} :
    Reachable drop place (s :: q) ↔
      drop (place ++ [s]) = false ∧ Reachable drop (place ++ [s]) q := by
  constructor
  · intro h
    refine ⟨h [s] (List.cons_ne_nil s []) ⟨q, rfl⟩, fun r _ hprefix => ?_⟩
    have hr := h (s :: r) (List.cons_ne_nil s r) ((List.cons_prefix_cons).2 ⟨rfl, hprefix⟩)
    rwa [List.append_assoc, List.singleton_append]
  · rintro ⟨hfirst, hrest⟩ r hr hprefix
    obtain ⟨s', r', rfl⟩ := List.exists_cons_of_ne_nil hr
    obtain ⟨rfl, hprefix'⟩ := List.cons_prefix_cons.1 hprefix
    by_cases hr' : r' = []
    · rw [hr']
      exact hfirst
    · have h := hrest r' hr' hprefix'
      rwa [List.append_assoc, List.singleton_append] at h

mutual

/-- **The leaves that are left** are those that are reachable. -/
theorem mem_keptLeaves (drop : Place → Bool) (place p : Place) (v : Scalar) : ∀ t : Node,
    (p, v) ∈ t.keptLeaves drop place ↔
      ∃ q, p = place ++ q ∧ t.At q (.value v) ∧ Reachable drop place q
  | .null => by
      rw [Node.keptLeaves]
      refine iff_of_false List.not_mem_nil ?_
      rintro ⟨q, _, h, _⟩
      cases h
  | .value w => by
      rw [Node.keptLeaves, List.mem_singleton, Prod.mk.injEq]
      constructor
      · rintro ⟨rfl, rfl⟩
        exact ⟨[], (List.append_nil _).symm, .here _, reachable_nil drop _⟩
      · rintro ⟨q, rfl, h, _⟩
        cases h
        exact ⟨List.append_nil _, rfl⟩
  | .map children => by
      rw [Node.keptLeaves, mem_keptFields drop place p v children]
      constructor
      · rintro ⟨k, w, q, hk, rfl, hq, hreach⟩
        exact ⟨_, rfl, .field hk hq, hreach⟩
      · rintro ⟨q, rfl, h, hreach⟩
        cases h with
        | field hk hq => exact ⟨_, _, _, hk, rfl, hq, hreach⟩
  | .slice children => by
      rw [Node.keptLeaves, mem_keptElems drop place p v 0 children]
      constructor
      · rintro ⟨i, w, q, hi, rfl, hq, hreach⟩
        rw [Nat.zero_add] at hreach
        exact ⟨_, by rw [Nat.zero_add], .elem hi hq, hreach⟩
      · rintro ⟨q, rfl, h, hreach⟩
        cases h with
        | elem hi hq =>
            exact ⟨_, _, _, hi, by rw [Nat.zero_add], hq, by rwa [Nat.zero_add]⟩

theorem mem_keptFields (drop : Place → Bool) (place p : Place) (v : Scalar) :
    ∀ fs : List (String × Node), (p, v) ∈ keptFields drop place fs ↔
      ∃ k w q, (k, w) ∈ fs ∧ p = place ++ .name k :: q ∧ w.At q (.value v) ∧
        Reachable drop place (.name k :: q)
  | [] => by simp [keptFields]
  | (k, w) :: rest => by
      have hhere : (p, v) ∈ (if drop (place ++ [.name k]) then []
          else w.keptLeaves drop (place ++ [.name k])) ↔
          ∃ q, p = place ++ .name k :: q ∧ w.At q (.value v) ∧
            Reachable drop place (.name k :: q) := by
        have hsub := mem_keptLeaves drop (place ++ [.name k]) p v w
        simp only [reachable_cons]
        cases hdrop : drop (place ++ [.name k]) with
        | true => simp
        | false => simpa using hsub
      rw [keptFields, List.mem_append, hhere, mem_keptFields drop place p v rest]
      constructor
      · rintro (⟨q, hp, hq, hreach⟩ | ⟨k', w', q, hk, hp, hq, hreach⟩)
        · exact ⟨k, w, q, List.mem_cons_self, hp, hq, hreach⟩
        · exact ⟨k', w', q, List.mem_cons_of_mem _ hk, hp, hq, hreach⟩
      · rintro ⟨k', w', q, hk, hp, hq, hreach⟩
        rcases List.mem_cons.1 hk with hk | hk
        · cases hk
          exact Or.inl ⟨q, hp, hq, hreach⟩
        · exact Or.inr ⟨k', w', q, hk, hp, hq, hreach⟩

theorem mem_keptElems (drop : Place → Bool) (place p : Place) (v : Scalar) :
    ∀ (i : ℕ) (ns : List Node), (p, v) ∈ keptElems drop place i ns ↔
      ∃ j w q, ns[j]? = some w ∧ p = place ++ .index (i + j) :: q ∧ w.At q (.value v) ∧
        Reachable drop place (.index (i + j) :: q)
  | _, [] => by simp [keptElems]
  | i, w :: rest => by
      have hhere : (p, v) ∈ (if drop (place ++ [.index i]) then []
          else w.keptLeaves drop (place ++ [.index i])) ↔
          ∃ q, p = place ++ .index i :: q ∧ w.At q (.value v) ∧
            Reachable drop place (.index i :: q) := by
        have hsub := mem_keptLeaves drop (place ++ [.index i]) p v w
        simp only [reachable_cons]
        cases hdrop : drop (place ++ [.index i]) with
        | true => simp
        | false => simpa using hsub
      rw [keptElems, List.mem_append, hhere, mem_keptElems drop place p v (i + 1) rest]
      constructor
      · rintro (⟨q, hp, hq, hreach⟩ | ⟨j, w', q, hj, hp, hq, hreach⟩)
        · exact ⟨0, w, q, rfl, hp, hq, hreach⟩
        · rw [Nat.add_right_comm, Nat.add_assoc] at hp hreach
          exact ⟨j + 1, w', q, hj, hp, hq, hreach⟩
      · rintro ⟨j, w', q, hj, hp, hq, hreach⟩
        cases j with
        | zero =>
            obtain rfl := Option.some.inj hj
            exact Or.inl ⟨q, hp, hq, hreach⟩
        | succ j =>
            rw [← Nat.add_assoc, Nat.add_right_comm] at hp hreach
            exact Or.inr ⟨j, w', q, hj, hp, hq, hreach⟩

end

/-! ## The texts of a key -/

/-- The texts that a parsed key is turned into: with a wildcard whose first place exists, one for
each index up to the first that is missing, and otherwise the key itself. -/
inductive Node.Spells (t : Node) (key text : String) : Prop
  | expanded (x : ℕ) (wild : Strings.contains key "[]" = true)
      (found : ∀ y ≤ x, t.placeExists (keyParts key) (countedIndices (wildcards key - 1) y) = true)
      (eq_round : text = (roundKeys (keyParts key) (countedIndices (wildcards key - 1) x)).1)
  | itself (missing : Strings.contains key "[]" = true →
        t.placeExists (keyParts key) (countedIndices (wildcards key - 1) 0) = false)
      (eq_key : text = key)

theorem concreteKeys_of_expandable {t : Node} {key : String} (h : t.Expandable key) :
    ∃ texts, t.concreteKeys key = .ok texts ∧ ∀ text, text ∈ texts ↔ t.Spells key text := by
  cases hwild : wildcards key with
  | zero =>
      have hno := not_contains_brackets hwild
      refine ⟨[key], concreteKeys_of_no_brackets t (Bool.eq_false_iff.2 hno), fun text => ?_⟩
      rw [List.mem_singleton]
      refine ⟨fun h => .itself (fun hc => absurd hc hno) h, fun h => ?_⟩
      cases h with
      | expanded _ wild => exact absurd wild hno
      | itself _ heq => exact heq
  | succ n =>
      have hcontains : Strings.contains key "[]" = true :=
        (contains_brackets_iff key).2 (hwild ▸ Nat.succ_pos n)
      have hcount := h hcontains
      rw [hwild, Nat.add_sub_cancel] at hcount
      obtain ⟨m, hmissing, hexists, hreturns⟩ := expansion_of_countable hwild hcount
      refine ⟨_,
        by rw [Node.concreteKeys, generateKeyList_eq, hreturns _ (Nat.lt_succ_self _)]; rfl,
        fun text => ?_⟩
      have hplace : countedIndices (wildcards key - 1) = countedIndices n := by
        rw [hwild, Nat.add_sub_cancel]
      cases m with
      | zero =>
          refine List.mem_singleton.trans
            ⟨fun h => .itself (fun _ => hplace ▸ hmissing) h, fun h => ?_⟩
          cases h with
          | expanded x _ found =>
              have hfound := found 0 (Nat.zero_le x)
              rw [hplace, hmissing] at hfound
              cases hfound
          | itself _ heq => exact heq
      | succ m =>
          simp only [List.length_map, List.length_range, Nat.succ_pos, if_true, List.mem_map,
            List.mem_range]
          constructor
          · rintro ⟨x, hx, heq⟩
            exact .expanded x hcontains (fun y hy => hplace ▸ hexists y (hy.trans_lt hx))
              (hplace ▸ heq.symm)
          · intro h
            cases h with
            | expanded x _ found heq =>
                rw [hplace] at found heq
                refine ⟨x, lt_of_not_ge fun hle => ?_, heq.symm⟩
                have hm := found (m + 1) hle
                rw [hmissing] at hm
                cases hm
            | itself missing _ =>
                have hfirst := missing hcontains
                rw [hplace, hexists 0 (Nat.succ_pos m)] at hfirst
                cases hfirst

theorem concreteKeys_of_not_expandable {t : Node} {key : String} (h : ¬t.Expandable key) :
    t.concreteKeys key = .error .diverges := by
  rw [Node.Expandable, Classical.not_imp] at h
  obtain ⟨n, hn⟩ := Nat.exists_eq_succ_of_ne_zero
    (Nat.pos_iff_ne_zero.1 ((contains_brackets_iff key).1 h.1))
  rw [hn, Nat.succ_sub_one] at h
  rw [Node.concreteKeys, generateKeyList_eq, expansion_of_not_countable hn h.2]
  rfl

/-- **What `validateKeyList` returns**: the texts of the parsed keys, if all of them can be
expanded. -/
theorem validateKeyList_ok {t : Node} {keys : List String}
    (h : ∀ k ∈ keys, t.Expandable (parseConcatKey k)) :
    ∃ validKeys, t.validateKeyList keys = .ok (validKeys, keys.map parseConcatKey) ∧
      ∀ text, text ∈ validKeys ↔ ∃ k ∈ keys, t.Spells (parseConcatKey k) text := by
  have hmapM : ∀ l : List String, (∀ k ∈ l, t.Expandable k) → ∃ texts,
      l.mapM t.concreteKeys = .ok texts ∧
        ∀ text, text ∈ texts.flatten ↔ ∃ k ∈ l, t.Spells k text := by
    intro l
    induction l with
    | nil => exact fun _ => ⟨[], rfl, by simp⟩
    | cons k rest ih =>
        intro hl
        obtain ⟨texts, htexts, hmem⟩ := concreteKeys_of_expandable (hl k List.mem_cons_self)
        obtain ⟨more, hmore, hmemMore⟩ := ih fun k' hk' => hl k' (List.mem_cons_of_mem k hk')
        refine ⟨texts :: more, by rw [List.mapM_cons, htexts, hmore]; rfl, fun text => ?_⟩
        simp only [List.flatten_cons, List.mem_append, hmem, hmemMore, List.mem_cons,
          exists_eq_or_imp]
  obtain ⟨texts, htexts, hmem⟩ := hmapM (keys.map parseConcatKey) fun k hk => by
    obtain ⟨k', hk', rfl⟩ := List.mem_map.1 hk
    exact h k' hk'
  refine ⟨texts.flatten, ?_, fun text => (hmem text).trans ?_⟩
  · simp only [Node.validateKeyList, htexts, bind, Except.bind, pure, Except.pure]
  · simp only [List.mem_map, exists_exists_and_eq_and]

theorem validateKeyList_diverges {t : Node} {keys : List String}
    (h : ¬∀ k ∈ keys, t.Expandable (parseConcatKey k)) :
    t.validateKeyList keys = .error .diverges := by
  have hmapM : ∀ l : List String, (¬∀ k ∈ l, t.Expandable k) →
      l.mapM t.concreteKeys = .error .diverges := by
    intro l
    induction l with
    | nil => exact fun hl => absurd (fun k hk => absurd hk List.not_mem_nil) hl
    | cons k rest ih =>
        intro hl
        rw [List.mapM_cons]
        by_cases hk : t.Expandable k
        · obtain ⟨texts, htexts, _⟩ := concreteKeys_of_expandable hk
          have hrest : ¬∀ k' ∈ rest, t.Expandable k' := fun hall =>
            hl (List.forall_mem_cons.2 ⟨hk, hall⟩)
          rw [htexts, ih hrest]
          rfl
        · rw [concreteKeys_of_not_expandable hk]
          rfl
  have hkeys : ¬∀ k ∈ keys.map parseConcatKey, t.Expandable k := fun hall =>
    h fun k hk => hall _ (List.mem_map_of_mem hk)
  rw [Node.validateKeyList, hmapM _ hkeys]
  rfl

/-- The texts of a key without `*` have none. -/
theorem star_not_mem_of_spells {t : Node} {key text : String} (hstar : '*' ∉ key.toList)
    (h : t.Spells (parseConcatKey key) text) : '*' ∉ text.toList := by
  have hparsed := not_mem_parseConcatKey (by decide) hstar
  cases h with
  | expanded x _ _ heq => exact heq ▸ not_mem_roundKeys (by decide) (by decide) hparsed _
  | itself _ heq => exact heq ▸ hparsed

/-- A place of the tree that satisfies `P`, the first on the way to it. -/
structure Node.Topmost (t : Node) (P : Place → Prop) (q : Place) : Prop where
  ne_nil : q ≠ []
  place : ∃ s, t.At q s
  holds : P q
  first : ∀ r, r ≠ [] → r <+: q → P r → r = q

theorem Node.topmost_congr {t : Node} {P P' : Place → Prop} (h : ∀ q, P q ↔ P' q) (q : Place) :
    t.Topmost P q ↔ t.Topmost P' q := by
  rw [show P = P' from funext fun q => propext (h q)]

section Mask

variable [Regexp.UnicodeTables]

/-- Whether a key covers a place. -/
def covered (keys : List String) (q : Place) : Bool := (keyExistsInList keys (dottedPath q)).1

mutual

/-- Masking leaves out what the keys cover. -/
theorem recursiveMask_eq_without (keys : List String) (place : Place) : ∀ t : Node,
    t.recursiveMask keys (dottedPath place) = t.without (covered keys) place
  | .null => rfl
  | .value _ => rfl
  | .map children => by
      rw [Node.recursiveMask, Node.without, maskFields_eq_withoutFields keys place children]
  | .slice children => by
      rw [Node.recursiveMask, Node.without, maskElems_eq_withoutElems keys place 0 children]

theorem maskFields_eq_withoutFields (keys : List String) (place : Place) :
    ∀ fs : List (String × Node),
      maskFields keys (dottedPath place) fs = withoutFields (covered keys) place fs
  | [] => rfl
  | (k, v) :: rest => by
      have hkey : childKey (dottedPath place) k = dottedPath (place ++ [.name k]) :=
        (dottedPath_concat place (.name k)).symm
      rw [maskFields, withoutFields, maskFields_eq_withoutFields keys place rest, hkey,
        recursiveMask_eq_without keys (place ++ [Segment.name k]) v, covered]

theorem maskElems_eq_withoutElems (keys : List String) (place : Place) :
    ∀ (i : ℕ) (ns : List Node),
      maskElems keys (dottedPath place) i ns = withoutElems (covered keys) place i ns
  | _, [] => rfl
  | i, v :: rest => by
      have hkey : childKey (dottedPath place) (Strings.itoa i) = dottedPath (place ++ [.index i]) :=
        (dottedPath_concat place (.index i)).symm
      rw [maskElems, withoutElems, maskElems_eq_withoutElems keys place (i + 1) rest, hkey,
        recursiveMask_eq_without keys (place ++ [Segment.index i]) v, covered]

end

/-- **Masking is leaving out places.** -/
theorem mask_eq_without {t : Node} {keys validKeys keys' : List String}
    (h : t.validateKeyList keys = .ok (validKeys, keys')) :
    t.mask keys = .ok (t.without (covered validKeys) [], keys') := by
  have hroot := recursiveMask_eq_without validKeys [] t
  rw [mask_of_validateKeyList h, ← hroot]
  rfl

end Mask

/-! ## What a key denotes -/

/-- A name in a key: as it stands or in quotes. -/
inductive KeyName where
  | bare (s : String)
  | quoted (s : String)

/-- An index in a key: `[n]`, or `[]` for any. -/
inductive KeyIndex where
  | one (n : ℕ)
  | any

/-- What stands between two dots of a key: a name and the indices after it. -/
structure KeyToken where
  name : Option KeyName
  indices : List KeyIndex

/-- A quoted name doubles the quotes in it. -/
def KeyName.chars : KeyName → List Char
  | .bare s => s.toList
  | .quoted s => '"' :: (s.toList.flatMap fun c => if c = '"' then ['"', '"'] else [c]) ++ ['"']

def KeyIndex.chars : KeyIndex → List Char
  | .one n => '[' :: (Strings.itoa n).toList ++ [']']
  | .any => ['[', ']']

def KeyToken.chars (token : KeyToken) : List Char :=
  (token.name.elim [] KeyName.chars) ++ token.indices.flatMap KeyIndex.chars

/-- The text of a key. -/
def keyChars (tokens : List KeyToken) : List Char :=
  ['.'].intercalate (tokens.map KeyToken.chars)

/-- A name without quotes is not empty, and holds no dot, no quote and no index. -/
def KeyName.WellFormed : KeyName → Prop
  | .bare s => s ≠ "" ∧ '.' ∉ s.toList ∧ '"' ∉ s.toList ∧ trailingIndex s = none ∧
      Strings.contains s "[]" = false
  | .quoted _ => True

/-- Between two dots there is a name or an index. -/
def KeyToken.WellFormed (token : KeyToken) : Prop :=
  (token.name = none → token.indices ≠ []) ∧ ∀ name ∈ token.name, name.WellFormed

/-- The segments that a name of a key, and an index, stand for. -/
def KeyName.Matches (name : KeyName) (s : Segment) : Prop :=
  match name with
  | .bare n => s = .name n
  | .quoted n => s = .name n

def KeyIndex.Matches : KeyIndex → Segment → Prop
  | .one n, s => s = .index n
  | .any, s => ∃ i, s = .index i

/-- The conditions on the segments of the places that a token stands for, one after the other. -/
def KeyToken.pattern (token : KeyToken) : List (Segment → Prop) :=
  token.name.toList.map KeyName.Matches ++ token.indices.map KeyIndex.Matches

/-- A key denotes a place.  One that is not well formed denotes none. -/
def Denotes (key : String) (q : Place) : Prop :=
  ∃ tokens : List KeyToken, tokens ≠ [] ∧ (∀ token ∈ tokens, token.WellFormed) ∧
    key.toList = keyChars tokens ∧
    List.Forall₂ (fun P s => P s) (tokens.flatMap KeyToken.pattern) q

section Denoted

variable [Regexp.UnicodeTables]

/-- A key without `*` covers its own text, and the empty key covers every text. -/
theorem isListed_of_no_star {data rule : String} (hstar : '*' ∉ rule.toList) :
    isListed data rule = true ↔ rule = data ∨ rule = "" := by
  have hcontains : ¬Strings.contains rule "*" = true := mt (Strings.contains_char_iff rule '*').1 hstar
  have hne : rule ≠ "*" := by
    rintro rfl
    exact hstar (List.mem_singleton.2 rfl)
  rw [isListed, if_neg hne, if_neg hcontains]
  by_cases heq : data = rule
  · rw [if_pos heq]
    exact iff_of_true rfl (Or.inl heq.symm)
  · rw [if_neg heq, or_iff_right (Ne.symm heq)]
    by_cases hempty : rule = ""
    · rw [if_pos hempty]
      exact iff_of_true rfl hempty
    · rw [if_neg hempty]
      exact iff_of_false Bool.false_ne_true hempty

/-- A place is spelled by one of the keys: its dotted path is a text of the key, or the empty text
is. -/
def Node.SpelledBy (t : Node) (keys : List String) (q : Place) : Prop :=
  ∃ k ∈ keys, t.Spells (parseConcatKey k) (dottedPath q) ∨ t.Spells (parseConcatKey k) ""

/-- Keys without `*` cover the places they spell. -/
theorem covered_iff_spelledBy {t : Node} {keys validKeys : List String}
    (hstar : ∀ k ∈ keys, '*' ∉ k.toList)
    (hvalid : ∀ text, text ∈ validKeys ↔ ∃ k ∈ keys, t.Spells (parseConcatKey k) text) (q : Place) :
    covered validKeys q = true ↔ t.SpelledBy keys q := by
  rw [covered, keyExistsInList_fst, List.any_eq_true]
  constructor
  · rintro ⟨text, hmem, hlisted⟩
    obtain ⟨k, hk, hspells⟩ := (hvalid text).1 hmem
    refine ⟨k, hk, ?_⟩
    rcases (isListed_of_no_star (star_not_mem_of_spells (hstar k hk) hspells)).1 hlisted with h | h
    · exact Or.inl (h ▸ hspells)
    · exact Or.inr (h ▸ hspells)
  · rintro ⟨k, hk, hspells | hspells⟩
    · exact ⟨_, (hvalid _).2 ⟨k, hk, hspells⟩,
        (isListed_of_no_star (star_not_mem_of_spells (hstar k hk) hspells)).2 (Or.inl rfl)⟩
    · exact ⟨_, (hvalid _).2 ⟨k, hk, hspells⟩,
        (isListed_of_no_star (star_not_mem_of_spells (hstar k hk) hspells)).2 (Or.inr rfl)⟩

theorem topmost_covered_iff {t : Node} {keys validKeys keys' : List String}
    (hstar : ∀ k ∈ keys, '*' ∉ k.toList)
    (hvalidate : t.validateKeyList keys = .ok (validKeys, keys')) (q : Place) :
    t.Topmost (fun r => covered validKeys r = true) q ↔ t.Topmost (t.SpelledBy keys) q := by
  have hexpand : ∀ k ∈ keys, t.Expandable (parseConcatKey k) := by
    by_contra hnot
    rw [validateKeyList_diverges hnot] at hvalidate
    cases hvalidate
  obtain ⟨validKeys', hvalidate', hvalid⟩ := validateKeyList_ok hexpand
  obtain ⟨rfl, rfl⟩ := Prod.mk.inj (Except.ok.inj (hvalidate'.symm.trans hvalidate))
  exact Node.topmost_congr (covered_iff_spelledBy hstar hvalid) q

end Denoted

theorem count_quote_quoted (s : List Char) :
    (s.flatMap fun c => if c = '"' then ['"', '"'] else [c]).count '"' = 2 * s.count '"' := by
  induction s with
  | nil => rfl
  | cons c rest ih =>
      rw [List.flatMap_cons, List.count_append, ih, List.count_cons]
      by_cases hc : c = '"'
      · subst hc
        simp
        omega
      · simp [hc]

theorem KeyName.even_count_quote {name : KeyName} (h : name.WellFormed) :
    Even (name.chars.count '"') := by
  cases name with
  | bare s =>
      rw [KeyName.chars, List.count_eq_zero.2 h.2.2.1]
      exact Even.zero
  | quoted s =>
      rw [KeyName.chars, List.count_append, List.count_cons_self, count_quote_quoted]
      exact ⟨s.toList.count '"' + 1, by simp; omega⟩

theorem count_quote_indices (indices : List KeyIndex) :
    (indices.flatMap KeyIndex.chars).count '"' = 0 := by
  rw [List.count_eq_zero]
  intro h
  obtain ⟨index, _, hchar⟩ := List.mem_flatMap.1 h
  cases index with
  | one n =>
      rw [KeyIndex.chars, List.mem_append, List.mem_cons] at hchar
      rcases hchar with (hopen | hdigit) | hclose
      · exact absurd hopen (by decide)
      · exact not_mem_itoa (by decide) n hdigit
      · exact absurd (List.mem_singleton.1 hclose) (by decide)
  | any => exact absurd hchar (by decide)

/-- A well-formed key has as many opening as closing quotes. -/
theorem even_count_quote {tokens : List KeyToken} (h : ∀ token ∈ tokens, token.WellFormed) :
    Even ((keyChars tokens).count '"') := by
  have hone : ∀ token : KeyToken, token.WellFormed → Even (token.chars.count '"') := by
    intro token htoken
    rw [KeyToken.chars, List.count_append, count_quote_indices, Nat.add_zero]
    cases hname : token.name with
    | none => exact Even.zero
    | some name => exact KeyName.even_count_quote (htoken.2 name hname)
  induction tokens with
  | nil => exact Even.zero
  | cons token rest ih =>
      obtain ⟨htoken, hrest⟩ := List.forall_mem_cons.1 h
      cases rest with
      | nil =>
          rw [keyChars, List.map_singleton, List.intercalate_singleton]
          exact hone token htoken
      | cons next rest =>
          rw [keyChars, List.map_cons, List.map_cons, List.intercalate_cons_cons, ← List.map_cons,
            ← keyChars, List.count_append, List.count_append]
          exact ((hone token htoken).add (by decide)).add (ih hrest)

/-- What stands between two dots of a plain key: a name, and at most one index behind it. -/
structure PlainToken where
  name : String
  index : Option KeyIndex
  plain : PlainName name
  chars : ∀ c ∈ ['"', '[', ']', '*'], c ∉ name.toList

namespace PlainToken

def token (p : PlainToken) : KeyToken := ⟨some (.bare p.name), p.index.toList⟩

/-- The names that a token is read as when its wildcard stands for the first of some indices.
Without an index the wildcard stays with its name. -/
def names (p : PlainToken) (v : List ℕ) : List String :=
  match p.index, v with
  | none, _ => [p.name]
  | some (.one n), _ => [p.name, Strings.itoa n]
  | some .any, i :: _ => [p.name, Strings.itoa i]
  | some .any, [] => [p.name ++ "[]"]

/-- The indices that a token leaves to the ones after it. -/
def unused (p : PlainToken) (v : List ℕ) : List ℕ :=
  match p.index with
  | some .any => v.tail
  | _ => v

theorem chars_eq (p : PlainToken) :
    p.token.chars = p.name.toList ++ p.index.elim [] KeyIndex.chars := by
  rw [KeyToken.chars, token]
  cases p.index with
  | none => rfl
  | some index => simp [KeyName.chars]

theorem not_mem_chars {p : PlainToken} {c : Char} (hname : c ∉ p.name.toList)
    (hdigit : c.isDigit = false) (hopen : c ≠ '[') (hclose : c ≠ ']') : c ∉ p.token.chars := by
  rw [p.chars_eq, List.mem_append, not_or]
  refine ⟨hname, ?_⟩
  cases p.index with
  | none => exact List.not_mem_nil
  | some index =>
      cases index with
      | one n => simp [KeyIndex.chars, hopen, hclose, not_mem_itoa hdigit n]
      | any => simp [KeyIndex.chars, hopen, hclose]

theorem wellFormed (p : PlainToken) : p.token.WellFormed := by
  refine ⟨fun h => absurd h (Option.some_ne_none _), fun name hname => ?_⟩
  obtain rfl := Option.some.inj hname
  have hclose := p.chars ']' (by decide)
  refine ⟨p.plain.1.1, p.plain.1.2, p.chars '"' (by decide), trailingIndex_eq_none hclose, ?_⟩
  rw [← Bool.not_eq_true, Strings.contains_iff]
  exact fun h => hclose (h.subset (by decide))

/-- A token as it is parsed. -/
theorem parseName_chars (p : PlainToken) :
    parseName (String.ofList p.token.chars) = p.names [] := by
  have hopen := p.chars '[' (by decide)
  rw [p.chars_eq]
  unfold names
  cases p.index with
  | none =>
      rw [Option.elim_none, List.append_nil, String.ofList_toList,
        parseName_eq_self (p.chars ']' (by decide))]
  | some index =>
      cases index with
      | one n =>
          have hparse := parseName_index hopen p.plain.1.1 n
          rwa [List.append_assoc] at hparse
      | any =>
          have htext : String.ofList (p.name.toList ++ KeyIndex.any.chars) = p.name ++ "[]" := by
            refine String.toList_inj.1 ?_
            rw [String.toList_ofList, String.toList_append]
            rfl
          rw [Option.elim_some, htext, parseName_wildcard]

theorem unused_nil (p : PlainToken) : p.unused [] = [] := by
  rw [unused]
  split <;> rfl

end PlainToken

/-- The text of a plain key. -/
def plainKey (tokens : List PlainToken) : String :=
  Strings.join (tokens.map fun p => String.ofList p.token.chars) "."

/-- The names that a plain key is read as when its wildcards stand for some indices. -/
def expand : List PlainToken → List ℕ → List String
  | [], _ => []
  | p :: rest, v => p.names v ++ expand rest (p.unused v)

/-- A plain key is read as its names and indices, the wildcards left where they stand. -/
theorem splitConcatKey_plainKey {tokens : List PlainToken} (hne : tokens ≠ []) :
    splitConcatKey (plainKey tokens) = expand tokens [] := by
  have hquote : '"' ∉ (plainKey tokens).toList := by
    intro h
    obtain hsep | ⟨text, htext, hc⟩ := Strings.mem_of_mem_join h
    · exact absurd hsep (by decide)
    · obtain ⟨p, _, rfl⟩ := List.mem_map.1 htext
      rw [String.toList_ofList] at hc
      exact PlainToken.not_mem_chars (p.chars '"' (by decide)) (by decide) (by decide)
        (by decide) hc
  have hsplit : Strings.split (plainKey tokens) '.' =
      tokens.map fun p => String.ofList p.token.chars := by
    refine Strings.split_join (by simpa using hne) fun text htext => ?_
    obtain ⟨p, _, rfl⟩ := List.mem_map.1 htext
    rw [String.toList_ofList]
    exact PlainToken.not_mem_chars p.plain.1.2 (by decide) (by decide) (by decide)
  rw [splitConcatKey_eq hquote, hsplit]
  clear hne hquote hsplit
  induction tokens with
  | nil => rfl
  | cons p rest ih =>
      rw [List.map_cons, List.flatMap_cons, ih, p.parseName_chars, expand, p.unused_nil]

/-- A segment without the characters that have a meaning in a key. -/
def BareSegment (s : String) : Prop := PlainSegment s ∧ ∀ c ∈ ['"', '[', ']'], c ∉ s.toList

theorem bareSegment_itoa (n : ℕ) : BareSegment (Strings.itoa n) := by
  have hdigit : ∀ c ∈ ['"', '[', ']'], c.isDigit = false := by simp
  exact ⟨plainSegment_itoa n, fun c hc => not_mem_itoa (hdigit c hc) n⟩

theorem PlainToken.bareSegment (p : PlainToken) : BareSegment p.name :=
  ⟨p.plain.1, fun c hc => p.chars c (List.mem_append_left ['*'] hc)⟩

theorem not_mem_join {segs : List String} (h : ∀ s ∈ segs, BareSegment s) {c : Char}
    (hc : c ∈ ['"', '[', ']']) : c ∉ (Strings.join segs ".").toList := by
  intro hmem
  obtain hdot | ⟨s, hs, hcs⟩ := Strings.mem_of_mem_join hmem
  · rw [List.mem_singleton.1 hdot] at hc
    exact absurd hc (by decide)
  · exact (h s hs).2 c hc hcs

/-- Bare segments are read as they stand. -/
theorem splitConcatKey_join {segs : List String} (hne : segs ≠ [])
    (h : ∀ s ∈ segs, BareSegment s) : splitConcatKey (Strings.join segs ".") = segs := by
  have hsplit : Strings.split (Strings.join segs ".") '.' = segs :=
    Strings.split_join hne fun s hs => (h s hs).1.2
  rw [splitConcatKey_eq (not_mem_join h (by decide)), hsplit,
    List.flatMap_congr fun s hs => parseName_eq_self ((h s hs).2 ']' (by decide)),
    List.flatMap_singleton']

theorem trim_join {segs : List String} (h : ∀ s ∈ segs, BareSegment s) :
    Strings.trim (Strings.join segs ".") "." = Strings.join segs "." := by
  by_cases hne : segs = []
  · subst hne
    rfl
  · have hsplit : Strings.split (Strings.join segs ".") '.' = segs :=
      Strings.split_join hne fun s hs => (h s hs).1.2
    have hparts : "" ∉ Strings.split (Strings.join segs ".") '.' := by
      rw [hsplit]
      exact fun hmem => (h "" hmem).1.1 rfl
    exact Strings.trim_eq_self hparts

theorem keyParts_join {segs : List String} (h : ∀ s ∈ segs, BareSegment s) :
    keyParts (Strings.join segs ".") = [Strings.join segs "."] := by
  rw [keyParts, splitBrackets_of_not_mem (not_mem_join h (by decide)), List.map_singleton,
    String.ofList_toList, trim_join h]

/-- The parts of a text up to the first wildcard and after it. -/
theorem keyParts_join_append {segs : List String} (h : ∀ s ∈ segs, BareSegment s) {name : String}
    (hname : BareSegment name) (rest : List String) :
    keyParts (Strings.join (segs ++ (name ++ "[]") :: rest) ".") =
      Strings.join (segs ++ [name]) "." :: keyParts (Strings.join rest ".") := by
  have hbare : ∀ s ∈ segs ++ [name], BareSegment s := by
    intro s hs
    rcases List.mem_append.1 hs with hs | hs
    · exact h s hs
    · exact List.mem_singleton.1 hs ▸ hname
  have htext : (Strings.join (segs ++ (name ++ "[]") :: rest) ".").toList =
      (Strings.join (segs ++ [name]) ".").toList ++
        '[' :: ']' :: rest.flatMap fun s => '.' :: s.toList := by
    cases segs with
    | nil =>
        rw [List.nil_append, List.nil_append, toList_join_cons, toList_join_cons]
        simp
    | cons s segs =>
        rw [List.cons_append, List.cons_append, toList_join_cons, toList_join_cons]
        simp
  have hrest : (splitBrackets (rest.flatMap fun s => '.' :: s.toList)).map
      (fun p => Strings.trim (String.ofList p) ".") = keyParts (Strings.join rest ".") := by
    cases rest with
    | nil => rfl
    | cons s rest =>
        rw [List.flatMap_cons, List.cons_append, ← toList_join_cons, splitBrackets_cons (by decide),
          keyParts]
        cases splitBrackets (Strings.join (s :: rest) ".").toList with
        | nil => rfl
        | cons p ps => exact congrArg (· :: _) (Strings.trim_cons '.' p)
  rw [keyParts, htext, splitBrackets_append (not_mem_join hbare (by decide)), List.map_cons, hrest,
    String.ofList_toList, trim_join hbare]

theorem partNames_join {segs : List String} (h : ∀ s ∈ segs, BareSegment s) :
    partNames (Strings.join segs ".") = segs := by
  by_cases hne : segs = []
  · subst hne
    rfl
  · have hjoin : Strings.join segs "." ≠ "" := by
      intro hempty
      have hsplit : Strings.split (Strings.join segs ".") '.' = segs :=
        Strings.split_join hne fun s hs => (h s hs).1.2
      rw [hempty] at hsplit
      exact (h "" (hsplit ▸ List.mem_singleton.2 rfl)).1.1 rfl
    rw [partNames, if_neg hjoin, splitConcatKey_join hne h]

/-- **How a plain key is expanded**: with some indices for its wildcards, the text of a round has
the names of the key and the indices. -/
theorem placePath_expand (tokens : List PlainToken) {segs : List String}
    (h : ∀ s ∈ segs, BareSegment s) {v : List ℕ}
    (hv : v.length + 1 = (keyParts (Strings.join (segs ++ expand tokens []) ".")).length) :
    placePath splitConcatKey (keyParts (Strings.join (segs ++ expand tokens []) ".")) v ++
      partNames ((keyParts (Strings.join (segs ++ expand tokens []) ".")).getLast?.getD "") =
        segs ++ expand tokens v := by
  induction tokens generalizing segs v with
  | nil =>
      have hparts : keyParts (Strings.join (segs ++ expand [] []) ".") =
          [Strings.join segs "."] := by
        rw [expand, List.append_nil, keyParts_join h]
      rw [hparts] at hv ⊢
      obtain rfl : v = [] := List.length_eq_zero_iff.1 (Nat.succ.inj hv)
      rw [List.getLast?_singleton, Option.getD_some, partNames_join h, expand, List.append_nil]
      rfl
  | cons p rest ih =>
      -- a token without a wildcard belongs to the part before the next one
      have hmove : ∀ more : List String, (∀ s ∈ more, BareSegment s) → p.names [] = more →
          p.names v = more → p.unused v = v →
          placePath splitConcatKey
              (keyParts (Strings.join (segs ++ expand (p :: rest) []) ".")) v ++
            partNames
              ((keyParts (Strings.join (segs ++ expand (p :: rest) []) ".")).getLast?.getD "") =
              segs ++ expand (p :: rest) v := by
        intro more hmore hnil hnames hunused
        have hsegs : ∀ s ∈ segs ++ more, BareSegment s := fun s hs =>
          (List.mem_append.1 hs).elim (h s) (hmore s)
        rw [expand, hnil, p.unused_nil, ← List.append_assoc] at hv ⊢
        rw [ih hsegs hv, expand, hnames, hunused, List.append_assoc]
      cases hindex : p.index with
      | none =>
          refine hmove [p.name] ?_ ?_ ?_ ?_
          · exact List.forall_mem_singleton.2 p.bareSegment
          · simp only [PlainToken.names, hindex]
          · simp only [PlainToken.names, hindex]
          · simp only [PlainToken.unused, hindex]
      | some index =>
          cases index with
          | one n =>
              refine hmove [p.name, Strings.itoa n] ?_ ?_ ?_ ?_
              · exact List.forall_mem_cons.2
                  ⟨p.bareSegment, List.forall_mem_singleton.2 (bareSegment_itoa n)⟩
              · simp only [PlainToken.names, hindex]
              · simp only [PlainToken.names, hindex]
              · simp only [PlainToken.unused, hindex]
          | any =>
              have hnil : p.names [] = [p.name ++ "[]"] := by simp only [PlainToken.names, hindex]
              have hparts : keyParts (Strings.join (segs ++ expand (p :: rest) []) ".") =
                  Strings.join (segs ++ [p.name]) "." ::
                    keyParts (Strings.join (expand rest []) ".") := by
                rw [expand, hnil, p.unused_nil, List.singleton_append,
                  keyParts_join_append h p.bareSegment]
              have hsegs : ∀ s ∈ segs ++ [p.name], BareSegment s := fun s hs =>
                (List.mem_append.1 hs).elim (h s) fun hs => List.mem_singleton.1 hs ▸ p.bareSegment
              have hne := keyParts_ne_nil (Strings.join (expand rest []) ".")
              rw [hparts, List.length_cons] at hv
              cases v with
              | nil => exact absurd (Nat.succ.inj hv).symm (List.length_pos_of_ne_nil hne).ne'
              | cons i v =>
                  have hrest := @ih [] (fun s hs => absurd hs List.not_mem_nil) v (Nat.succ.inj hv)
                  rw [List.nil_append, List.nil_append] at hrest
                  have hnames : p.names (i :: v) = [p.name, Strings.itoa i] := by
                    simp only [PlainToken.names, hindex]
                  have hunused : p.unused (i :: v) = v := by
                    simp only [PlainToken.unused, hindex]
                    rfl
                  have hpath : ∀ parts : List String, placePath splitConcatKey
                      (Strings.join (segs ++ [p.name]) "." :: parts) (i :: v) =
                        segs ++ [p.name] ++ [Strings.itoa i] ++
                          placePath splitConcatKey parts v := by
                    intro parts
                    rw [placePath, List.zip_cons_cons, List.flatMap_cons, ← placePath,
                      splitConcatKey_join (by simp) hsegs]
                  rw [hparts, hpath, List.getLast?_cons_of_ne_nil hne, List.append_assoc, hrest,
                    expand, hnames, hunused]
                  simp

/-- The names of the tree are plain, and hold no bracket that ends an index. -/
def Node.PlainPlaces (t : Node) : Prop :=
  ∀ q s, t.At q s → ∀ k, Segment.name k ∈ q → PlainName k ∧ ']' ∉ k.toList

theorem eq_name_cons {q : Place} {name : String} {rest : List String} (hname : PlainName name)
    (h : q.map Segment.text = name :: rest) :
    ∃ q', q = .name name :: q' ∧ q'.map Segment.text = rest := by
  obtain ⟨s, q', rfl, hs, hrest⟩ := List.map_eq_cons_iff.1 h
  cases s with
  | name k => exact ⟨q', by rw [← hs]; rfl, hrest⟩
  | index i => exact absurd hs.symm (hname.2 i)

theorem eq_index_cons {q : Place} {n : ℕ} {rest : List String}
    (hq : ∀ k, Segment.name k ∈ q → PlainName k) (h : q.map Segment.text = Strings.itoa n :: rest) :
    ∃ q', q = .index n :: q' ∧ q'.map Segment.text = rest := by
  obtain ⟨s, q', rfl, hs, hrest⟩ := List.map_eq_cons_iff.1 h
  cases s with
  | name k => exact absurd hs ((hq k List.mem_cons_self).2 n)
  | index i => exact ⟨q', by rw [itoa_injective hs], hrest⟩

/-- Places with the names of a plain key, and some indices, match it. -/
theorem forall₂_of_expand {tokens : List PlainToken} {q : Place} {v : List ℕ}
    (hq : ∀ k, Segment.name k ∈ q → PlainName k ∧ ']' ∉ k.toList)
    (h : q.map Segment.text = expand tokens v) :
    List.Forall₂ (fun P s => P s) (tokens.flatMap fun p => p.token.pattern) q := by
  induction tokens generalizing q v with
  | nil =>
      rw [List.map_eq_nil_iff.1 h]
      exact .nil
  | cons p rest ih =>
      rw [expand] at h
      rw [List.flatMap_cons]
      cases hindex : p.index with
      | none =>
          have hpattern : p.token.pattern = [KeyName.Matches (.bare p.name)] := by
            simp [KeyToken.pattern, PlainToken.token, hindex]
          have hnames : p.names v = [p.name] := by simp only [PlainToken.names, hindex]
          rw [hnames] at h
          obtain ⟨q', rfl, hrest⟩ := eq_name_cons p.plain h
          rw [hpattern]
          exact .cons rfl (ih (fun k hk => hq k (List.mem_cons_of_mem _ hk)) hrest)
      | some index =>
          have hpattern : p.token.pattern = [KeyName.Matches (.bare p.name), index.Matches] := by
            simp [KeyToken.pattern, PlainToken.token, hindex]
          -- the name of the token, then an index that matches
          have hstep : ∀ n, p.names v = [p.name, Strings.itoa n] → index.Matches (.index n) →
              List.Forall₂ (fun P s => P s)
                (p.token.pattern ++ rest.flatMap fun p => p.token.pattern) q := by
            intro n hnames hmatches
            rw [hnames] at h
            obtain ⟨q', rfl, hrest⟩ := eq_name_cons p.plain h
            have hq' : ∀ k, Segment.name k ∈ q' → PlainName k ∧ ']' ∉ k.toList := fun k hk =>
              hq k (List.mem_cons_of_mem _ hk)
            obtain ⟨q'', rfl, hrest'⟩ := eq_index_cons (fun k hk => (hq' k hk).1) hrest
            rw [hpattern]
            exact .cons rfl
              (.cons hmatches (ih (fun k hk => hq' k (List.mem_cons_of_mem _ hk)) hrest'))
          cases index with
          | one n => exact hstep n (by simp only [PlainToken.names, hindex]) rfl
          | any =>
              cases v with
              | nil =>
                  -- no name ends in brackets
                  have hnames : p.names [] = [p.name ++ "[]"] := by
                    simp only [PlainToken.names, hindex]
                  rw [hnames] at h
                  obtain ⟨s, q', rfl, hs, _⟩ := List.map_eq_cons_iff.1 h
                  have hbracket : ']' ∈ s.text.toList := by
                    rw [hs, String.toList_append]
                    exact List.mem_append_right _ (by decide)
                  cases s with
                  | name k => exact absurd hbracket (hq k List.mem_cons_self).2
                  | index i => exact absurd hbracket (not_mem_itoa (by decide) i)
              | cons i v => exact hstep i (by simp only [PlainToken.names, hindex]) ⟨i, rfl⟩

/-- The names of an expanded key are parsed as they stand. -/
theorem mem_expand {tokens : List PlainToken} {v : List ℕ} {s : String} (h : s ∈ expand tokens v) :
    s ≠ "" ∧ '.' ∉ s.toList ∧ '"' ∉ s.toList ∧ parseName s = [s] := by
  induction tokens generalizing v with
  | nil => exact absurd h List.not_mem_nil
  | cons p rest ih =>
      have hname : p.name ≠ "" ∧ '.' ∉ p.name.toList ∧ '"' ∉ p.name.toList ∧
          parseName p.name = [p.name] :=
        ⟨p.plain.1.1, p.plain.1.2, p.chars '"' (by decide),
          parseName_eq_self (p.chars ']' (by decide))⟩
      have hitoa : ∀ n, Strings.itoa n ≠ "" ∧ '.' ∉ (Strings.itoa n).toList ∧
          '"' ∉ (Strings.itoa n).toList ∧ parseName (Strings.itoa n) = [Strings.itoa n] := fun n =>
        ⟨(plainSegment_itoa n).1, (plainSegment_itoa n).2, not_mem_itoa (by decide) n,
          parseName_itoa n⟩
      rw [expand, List.mem_append] at h
      rcases h with h | h
      · unfold PlainToken.names at h
        split at h
        · exact List.mem_singleton.1 h ▸ hname
        · rcases List.mem_cons.1 h with rfl | h
          · exact hname
          · exact List.mem_singleton.1 h ▸ hitoa _
        · rcases List.mem_cons.1 h with rfl | h
          · exact hname
          · exact List.mem_singleton.1 h ▸ hitoa _
        · rw [List.mem_singleton.1 h]
          simp [hname.2.1, hname.2.2.1, parseName_wildcard]
      · exact ih h

/-- **What a plain key is turned into** in a tree: the names of the key with indices for its
wildcards. -/
theorem spells_plainKey {t : Node} {tokens : List PlainToken} (hne : tokens ≠ []) {text : String}
    (h : t.Spells (parseConcatKey (plainKey tokens)) text) :
    '"' ∉ text.toList ∧ ∃ v, splitConcatKey text = expand tokens v := by
  have hparse : parseConcatKey (plainKey tokens) = Strings.join (expand tokens []) "." := by
    rw [parseConcatKey, splitConcatKey_plainKey hne]
  have hquote : '"' ∉ (Strings.join (expand tokens []) ".").toList := by
    intro hmem
    obtain hdot | ⟨s, hs, hc⟩ := Strings.mem_of_mem_join hmem
    · exact absurd hdot (by decide)
    · exact (mem_expand hs).2.2.1 hc
  rw [hparse] at h
  cases h with
  | expanded x wild _ heq =>
      obtain ⟨n, hn⟩ := Nat.exists_eq_succ_of_ne_zero
        (Nat.pos_iff_ne_zero.1 ((contains_brackets_iff _).1 wild))
      rw [hn, Nat.succ_sub_one] at heq
      refine ⟨heq ▸ not_mem_roundKeys (by decide) (by decide) hquote _, countedIndices n x, ?_⟩
      have hlength := length_countedIndices n x
      have hexpand := @placePath_expand tokens [] (fun s hs => absurd hs List.not_mem_nil)
        (countedIndices n x) (by rw [List.nil_append, hlength]; rw [wildcards] at hn; omega)
      rw [heq, splitConcatKey_roundKeys hn hquote hlength]
      exact hexpand
  | itself _ heq =>
      refine ⟨heq ▸ hquote, [], ?_⟩
      have hexpand : expand tokens [] ≠ [] := by
        obtain ⟨p, rest, rfl⟩ := List.exists_cons_of_ne_nil hne
        rw [expand]
        unfold PlainToken.names
        split <;> simp
      have hsplit : Strings.split (Strings.join (expand tokens []) ".") '.' = expand tokens [] :=
        Strings.split_join hexpand fun s hs => (mem_expand hs).2.1
      rw [heq, splitConcatKey_eq hquote, hsplit,
        List.flatMap_congr fun s hs => (mem_expand hs).2.2.2, List.flatMap_singleton']

/-- A plain key spells the places that it denotes. -/
theorem denotes_of_spells {t : Node} (ht : t.PlainPlaces) {q : Place} (hq : ∃ s, t.At q s)
    (hne : q ≠ []) {tokens : List PlainToken} (htokens : tokens ≠ [])
    (h : t.Spells (parseConcatKey (plainKey tokens)) (dottedPath q)) :
    Denotes (plainKey tokens) q := by
  obtain ⟨s, hs⟩ := hq
  obtain ⟨hquote, v, hnames⟩ := spells_plainKey htokens h
  have hplain := ht q s hs
  have hsegments : ∀ text ∈ q.map Segment.text, PlainSegment text ∧ ']' ∉ text.toList := by
    intro text htext
    obtain ⟨segment, hsegment, rfl⟩ := List.mem_map.1 htext
    cases segment with
    | name k => exact ⟨(hplain k hsegment).1.1, (hplain k hsegment).2⟩
    | index i => exact ⟨plainSegment_itoa i, not_mem_itoa (by decide) i⟩
  have hjoin : dottedPath q = Strings.join (q.map Segment.text) "." :=
    dotted_eq_join fun text htext => (hsegments text htext).1
  have hsplit : Strings.split (Strings.join (q.map Segment.text) ".") '.' = q.map Segment.text :=
    Strings.split_join (by simpa using hne) fun text htext => (hsegments text htext).1.2
  rw [splitConcatKey_eq hquote, hjoin, hsplit,
    List.flatMap_congr fun text htext => parseName_eq_self (hsegments text htext).2,
    List.flatMap_singleton'] at hnames
  refine ⟨tokens.map PlainToken.token, by simpa using htokens, ?_, ?_, ?_⟩
  · intro token htoken
    obtain ⟨p, _, rfl⟩ := List.mem_map.1 htoken
    exact p.wellFormed
  · have hchars : String.toList ∘ (fun p : PlainToken => String.ofList p.token.chars) =
        KeyToken.chars ∘ PlainToken.token :=
      funext fun p => String.toList_ofList
    rw [plainKey, Strings.join, String.toList_ofList, keyChars, List.map_map, List.map_map, hchars]
    rfl
  · rw [List.flatMap_map]
    exact forall₂_of_expand hplain hnames

theorem not_spells_empty {t : Node} {tokens : List PlainToken} (hne : tokens ≠ []) :
    ¬t.Spells (parseConcatKey (plainKey tokens)) "" := by
  intro h
  obtain ⟨_, v, hnames⟩ := spells_plainKey hne h
  have hempty : "" ∈ expand tokens v := hnames ▸ List.mem_singleton.2 rfl
  exact (mem_expand hempty).1 rfl

/-- **In plain objects, masking with plain keys removes only what they denote.** -/
theorem mask_removes_denoted_of_plain [Regexp.UnicodeTables] {t : Node} (ht : t.PlainPlaces)
    {keys : List (List PlainToken)} (hkeys : ∀ tokens ∈ keys, tokens ≠ [])
    {validKeys keys' : List String}
    (hvalidate : t.validateKeyList (keys.map plainKey) = .ok (validKeys, keys')) {q : Place}
    (hq : t.Topmost (fun r => covered validKeys r = true) q) :
    ∃ k ∈ keys.map plainKey, Denotes k q := by
  have hstar : ∀ k ∈ keys.map plainKey, '*' ∉ k.toList := by
    intro k hk hmem
    obtain ⟨tokens, _, rfl⟩ := List.mem_map.1 hk
    obtain hdot | ⟨text, htext, hc⟩ := Strings.mem_of_mem_join hmem
    · exact absurd hdot (by decide)
    · obtain ⟨p, _, rfl⟩ := List.mem_map.1 htext
      rw [String.toList_ofList] at hc
      exact PlainToken.not_mem_chars (p.chars '*' (by decide)) (by decide) (by decide)
        (by decide) hc
  have hspelled := (topmost_covered_iff hstar hvalidate q).1 hq
  obtain ⟨k, hk, hspells | hempty⟩ := hspelled.holds
  · obtain ⟨tokens, htokens, rfl⟩ := List.mem_map.1 hk
    exact ⟨_, hk,
      denotes_of_spells ht hspelled.place hspelled.ne_nil (hkeys tokens htokens) hspells⟩
  · obtain ⟨tokens, htokens, rfl⟩ := List.mem_map.1 hk
    exact absurd hempty (not_spells_empty (hkeys tokens htokens))

end Mapnode
end IntegrityShield
