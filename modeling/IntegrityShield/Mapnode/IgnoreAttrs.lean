/-
# Ignored attributes in the two checks

An attribute that a profile lets change is used twice.  The mutation check drops the
differences that `DiffResult.Filter` finds under it, the signature check masks both objects
with it (`shield/pkg/util/mapnode/diff.go`, `node.go`).  `Filter` appends `*` to the key as it
stands and looks for it, as an expression, anywhere in the path of the difference.  `Mask`
parses the key, expands it and looks for the places that are spelled like it.  So the two
agree on a leaf exactly when the expression is found in its path if and only if a place on the
way to the leaf is listed (`filter_iff_mask_iff`).

For a key of literal characters and dots, in a plain object, this is a statement about texts
(`filter_iff_mask_literal`): if the key occurs in the path, dots standing for any character, it
is the path or the beginning of the path up to a dot.  `data.comment1` occurs in
`data.comment10`.
-/

import IntegrityShield.Base.RegexpText
import IntegrityShield.Mapnode.Diff
import IntegrityShield.Mapnode.Removal

namespace IntegrityShield
namespace Mapnode

section Both

variable [Regexp.UnicodeTables]

/-- `Filter` keeps what its key, with a `*` behind it, does not cover. -/
theorem mem_unfiltered_iff {dr : DiffResult} {d : Difference} (hd : d ∈ dr.items) (k : String) :
    d ∈ (dr.filter [k]).2.1.items ↔ isListed d.key (k ++ "*") = false := by
  simp only [DiffResult.filter, List.mem_filter, keyExistsInList_fst, List.map_cons, List.map_nil,
    List.any_cons, List.any_nil, Bool.or_false, Bool.not_eq_true', hd, true_and]

/-- Masking removes a leaf: `Mask` returns, and the leaf is not among those that are left. -/
def Node.LeafMasked (t : Node) (keys : List String) (q : Place) (v : Scalar) : Prop :=
  ∃ validKeys keys', t.validateKeyList keys = .ok (validKeys, keys') ∧
    t.mask keys = .ok (t.without (covered validKeys) [], keys') ∧
    (q, v) ∉ t.keptLeaves (covered validKeys) []

/-- A place on the way to a leaf, or the leaf itself, is listed by a text of the key. -/
def Node.ListsOnTheWay (t : Node) (k : String) (q : Place) : Prop :=
  ∃ r, r ≠ [] ∧ r <+: q ∧ ∃ text, t.Spells (parseConcatKey k) text ∧
    isListed (dottedPath r) text = true

theorem leafMasked_iff {t : Node} {q : Place} {v : Scalar} (hleaf : t.At q (.value v))
    (k : String) :
    t.LeafMasked [k] q v ↔ t.Expandable (parseConcatKey k) ∧ t.ListsOnTheWay k q := by
  have hone : (∀ k' ∈ [k], t.Expandable (parseConcatKey k')) ↔ t.Expandable (parseConcatKey k) :=
    List.forall_mem_singleton
  constructor
  · rintro ⟨validKeys, keys', hvalidate, _, hgone⟩
    have hexpand : t.Expandable (parseConcatKey k) := by
      by_contra hnot
      rw [validateKeyList_diverges (mt hone.1 hnot)] at hvalidate
      cases hvalidate
    obtain ⟨validKeys', hvalidate', hvalid⟩ := validateKeyList_ok (hone.2 hexpand)
    obtain ⟨rfl, rfl⟩ := Prod.mk.inj (Except.ok.inj (hvalidate'.symm.trans hvalidate))
    refine ⟨hexpand, ?_⟩
    by_contra hnone
    refine hgone ((mem_keptLeaves _ [] q v t).2 ⟨q, rfl, hleaf, fun r hr hprefix => ?_⟩)
    rw [List.nil_append, covered, keyExistsInList_fst, List.any_eq_false]
    intro text htext hlisted
    obtain ⟨k', hk', hspells⟩ := (hvalid text).1 htext
    rw [List.mem_singleton.1 hk'] at hspells
    exact hnone ⟨r, hr, hprefix, text, hspells, hlisted⟩
  · rintro ⟨hexpand, r, hr, hprefix, text, hspells, hlisted⟩
    obtain ⟨validKeys, hvalidate, hvalid⟩ := validateKeyList_ok (hone.2 hexpand)
    refine ⟨validKeys, _, hvalidate, mask_eq_without hvalidate, fun hkept => ?_⟩
    obtain ⟨q', rfl, _, hreach⟩ := (mem_keptLeaves _ [] q v t).1 hkept
    have hcovered := hreach r hr hprefix
    rw [List.nil_append, covered, keyExistsInList_fst, List.any_eq_false] at hcovered
    exact hcovered text ((hvalid text).2 ⟨k, List.mem_singleton.2 rfl, hspells⟩) hlisted

end Both

/-! ## Keys of literal characters and dots -/

/-- A key whose characters stand for themselves in an expression, dots apart. -/
def LiteralKey (k : String) : Prop :=
  k ≠ "" ∧ ∀ c ∈ k.toList, c ≠ '"' ∧ (c = '.' ∨ c ∉ Regexp.metaChars)

/-- A key occurs in a text, its dots standing for any character but a line end. -/
def OccursIn (k text : String) : Prop :=
  ∃ a w z, text.toList = a ++ w ++ z ∧
    List.Forall₂ (fun c d => if c = '.' then d ≠ '\n' else d = c) k.toList w

/-- What a character of a key is in the expression. -/
def glyph (c : Char) : Regexp.Glyph := if c = '.' then .dot else .char c

theorem reads_glyph {c : Char} {w : List Char} :
    (glyph c).Reads w ↔ ∃ d, w = [d] ∧ if c = '.' then d ≠ '\n' else d = c := by
  rw [glyph]
  split_ifs
  · rfl
  · exact ⟨fun h => ⟨c, h, rfl⟩, fun ⟨d, hw, hd⟩ => hd ▸ hw⟩

theorem matches_glyphs {l w : List Char} :
    Regexp.Matches (l.map glyph ++ [.dots]) w ↔ ∃ u v, w = u ++ v ∧
      List.Forall₂ (fun c d => if c = '.' then d ≠ '\n' else d = c) l u ∧ '\n' ∉ v := by
  induction l generalizing w with
  | nil =>
      constructor
      · rintro ⟨u, v, rfl, hu, rfl⟩
        exact ⟨[], u, List.append_nil u, .nil, hu⟩
      · rintro ⟨u, v, rfl, hu, hv⟩
        cases hu
        exact ⟨v, [], (List.append_nil v).symm, hv, rfl⟩
  | cons c l ih =>
      constructor
      · rintro ⟨u, v, rfl, hu, hv⟩
        obtain ⟨d, rfl, hd⟩ := reads_glyph.1 hu
        obtain ⟨u, v, rfl, hu, hv⟩ := ih.1 hv
        exact ⟨d :: u, v, rfl, .cons hd hu, hv⟩
      · rintro ⟨u, v, rfl, hu, hv⟩
        cases hu with
        | cons hd hu => exact ⟨[_], _, rfl, reads_glyph.2 ⟨_, rfl, hd⟩, ih.2 ⟨_, v, rfl, hu, hv⟩⟩

theorem flatMap_glyph (l : List Char) : (l.map glyph).flatMap Regexp.Glyph.chars = l := by
  induction l with
  | nil => rfl
  | cons c l ih =>
      rw [List.map_cons, List.flatMap_cons, ih, glyph]
      split_ifs with hc
      · rw [hc]
        rfl
      · rfl

theorem LiteralKey.not_mem {k : String} (h : LiteralKey k) {c : Char}
    (hc : c = '"' ∨ c ≠ '.' ∧ c ∈ Regexp.metaChars) : c ∉ k.toList := by
  intro hmem
  obtain ⟨hquote, hdot | hnot⟩ := h.2 c hmem
  · rcases hc with hc | hc
    · exact hquote hc
    · exact hc.1 hdot
  · rcases hc with hc | hc
    · exact hquote hc
    · exact hnot hc.2

/-- A key occurs where a text begins with it. -/
theorem occursIn_append (k rest : String) : OccursIn k (k ++ rest) := by
  refine ⟨[], k.toList, rest.toList, by rw [String.toList_append, List.nil_append], ?_⟩
  refine List.forall₂_same.2 fun c _ => ?_
  split_ifs with hdot
  · rw [hdot]
    decide
  · rfl

section Literal

variable [Regexp.UnicodeTables]

/-- **What the mutation check finds under a literal key.** -/
theorem isListed_literal {k : String} (h : LiteralKey k) (text : String) :
    isListed text (k ++ "*") = true ↔ OccursIn k text := by
  have hstar : '*' ∉ k.toList := h.not_mem (Or.inr (by decide))
  have hreplace : Strings.replaceAll (k ++ "*") "*" ".*" = k ++ ".*" :=
    Strings.replaceAll_append_self (rfl : "*".toList = ['*']) hstar ".*"
  have hchars : k ++ ".*" =
      String.ofList ((k.toList.map glyph ++ [Regexp.Glyph.dots]).flatMap Regexp.Glyph.chars) := by
    refine String.toList_inj.1 ?_
    rw [String.toList_ofList, List.flatMap_append, flatMap_glyph, String.toList_append]
    rfl
  have htext : ∀ g ∈ k.toList.map glyph ++ [Regexp.Glyph.dots], g.IsText := by
    intro g hg
    rcases List.mem_append.1 hg with hg | hg
    · obtain ⟨c, hc, rfl⟩ := List.mem_map.1 hg
      rw [glyph]
      split_ifs with hdot
      · trivial
      · exact (h.2 c hc).2.resolve_left hdot
    · rw [List.mem_singleton.1 hg]
      trivial
  have hmatch : Regexp.matchString (k ++ ".*") text = true ↔ OccursIn k text := by
    rw [hchars, Regexp.matchString_glyphs htext]
    constructor
    · rintro ⟨a, w, z, htext, hw⟩
      obtain ⟨u, v, rfl, hu, _⟩ := matches_glyphs.1 hw
      exact ⟨a, u, v ++ z, by rw [htext]; simp, hu⟩
    · rintro ⟨a, u, z, htext, hu⟩
      exact ⟨a, u, z, htext,
        matches_glyphs.2 ⟨u, [], (List.append_nil u).symm, hu, List.not_mem_nil⟩⟩
  have hcontains : Strings.contains (k ++ "*") "*" = true := by
    rw [Strings.contains_iff, String.toList_append]
    exact List.suffix_append _ _ |>.isInfix
  have hne : k ++ "*" ≠ "*" := by
    intro heq
    have hlist := congrArg String.toList heq
    rw [String.toList_append, List.append_left_eq_self] at hlist
    exact h.1 (String.toList_eq_nil_iff.1 hlist)
  have hnil : k ++ "*" ≠ "" := by
    intro heq
    have hlist := congrArg String.toList heq
    simp at hlist
  rw [isListed, if_neg hne, if_neg hnil, if_pos hcontains, hreplace]
  split_ifs with heq
  · exact iff_of_true rfl (heq ▸ occursIn_append k "*")
  · exact hmatch

/-- A literal key is the text it is turned into, and lists the place of that path. -/
theorem listsOnTheWay_iff {t : Node} {k : String} (h : LiteralKey k) (q : Place) :
    t.ListsOnTheWay k q ↔ ∃ r, r ≠ [] ∧ r <+: q ∧ dottedPath r = k := by
  have hparse : parseConcatKey k = k :=
    parseConcatKey_eq_self (h.not_mem (Or.inl rfl)) (h.not_mem (Or.inr (by decide)))
  have hbrackets : ¬Strings.contains k "[]" = true := by
    rw [Strings.contains_iff]
    exact fun hin => h.not_mem (c := '[') (Or.inr (by decide)) (hin.subset (by decide))
  have hspells : ∀ text, t.Spells k text ↔ text = k := by
    intro text
    refine ⟨fun hs => ?_, fun heq => .itself (fun hc => absurd hc hbrackets) heq⟩
    cases hs with
    | expanded _ wild => exact absurd wild hbrackets
    | itself _ heq => exact heq
  have hlisted : ∀ r, isListed (dottedPath r) k = true ↔ dottedPath r = k := by
    intro r
    rw [isListed_of_no_star (h.not_mem (Or.inr (by decide))), or_iff_left h.1, eq_comm]
  simp only [Node.ListsOnTheWay, hparse, hspells, exists_eq_left, hlisted]

/-- In a plain object, a literal key lists a place on the way to a leaf when it is the path, or the
beginning of the path up to a dot. -/
theorem listsOnTheWay_literal {t : Node} (ht : t.PlainPlaces) {q : Place} {s : Node} (hq : t.At q s)
    {k : String} (h : LiteralKey k) :
    t.ListsOnTheWay k q ↔
      dottedPath q = k ∨ Strings.hasPrefix (dottedPath q) (k ++ ".") = true := by
  have hsegments : ∀ text ∈ q.map Segment.text, PlainSegment text := by
    intro text htext
    obtain ⟨segment, hsegment, rfl⟩ := List.mem_map.1 htext
    cases segment with
    | name k => exact (ht q s hq k hsegment).1.1
    | index i => exact plainSegment_itoa i
  rw [listsOnTheWay_iff h, Strings.hasPrefix_iff]
  constructor
  · rintro ⟨r, _, ⟨z, rfl⟩, rfl⟩
    have hdotted : (dottedPath (r ++ z)).toList =
        (dottedPath r).toList ++ (z.map Segment.text).flatMap fun s => '.' :: s.toList := by
      rw [dottedPath, List.map_append, dotted, List.foldl_append]
      exact toList_dotted h.1 _
    cases z with
    | nil => exact Or.inl (congrArg dottedPath (List.append_nil r))
    | cons segment z =>
        refine Or.inr ?_
        rw [hdotted, String.toList_append, List.map_cons, List.flatMap_cons, List.cons_append]
        exact (List.prefix_append_right_inj _).2 ⟨_, rfl⟩
  · rintro (hpath | ⟨rest, hrest⟩)
    · refine ⟨q, ?_, List.prefix_refl q, hpath⟩
      rintro rfl
      exact h.1 hpath.symm
    · have hne : q ≠ [] := by
        rintro rfl
        simp [dottedPath, dotted] at hrest
      have htext : dottedPath q = k ++ String.ofList ['.'] ++ String.ofList rest := by
        refine String.toList_inj.1 ?_
        rw [← hrest]
        simp
      have hsplit : q.map Segment.text =
          Strings.split k '.' ++ Strings.split (String.ofList rest) '.' := by
        have hjoin : Strings.split (Strings.join (q.map Segment.text) ".") '.' =
            q.map Segment.text :=
          Strings.split_join (by simpa using hne) fun text htext => (hsegments text htext).2
        rw [← hjoin, ← dotted_eq_join hsegments, ← Strings.split_append, ← htext]
        rfl
      have htake : (q.take (Strings.split k '.').length).map Segment.text =
          Strings.split k '.' := by
        rw [List.map_take, hsplit, List.take_left]
      refine ⟨q.take (Strings.split k '.').length, ?_, List.take_prefix _ q, ?_⟩
      · intro hnil
        rw [hnil, List.map_nil] at htake
        exact absurd htake.symm (by simp [Strings.split])
      · have hprefix : ∀ text ∈ Strings.split k '.', PlainSegment text := by
          intro text hmem
          rw [← htake, List.map_take] at hmem
          exact hsegments text (List.mem_of_mem_take hmem)
        rw [dottedPath, htake, dotted_eq_join hprefix]
        exact Strings.join_split k '.'

/-- **When a literal key means the same in both checks**, for a leaf of a plain object: if it occurs
in the path, it is the path or the beginning of the path up to a dot. -/
theorem filter_iff_mask_literal {t : Node} (ht : t.PlainPlaces) {k : String} (h : LiteralKey k)
    {q : Place} {v : Scalar} (hleaf : t.At q (.value v)) {dr : DiffResult} {d : Difference}
    (hd : d ∈ dr.items) (hkey : d.key = dottedPath q) :
    (d ∉ (dr.filter [k]).2.1.items ↔ t.LeafMasked [k] q v) ↔
      (OccursIn k (dottedPath q) →
        dottedPath q = k ∨ Strings.hasPrefix (dottedPath q) (k ++ ".") = true) := by
  have hexpand : t.Expandable (parseConcatKey k) := by
    rw [parseConcatKey_eq_self (h.not_mem (Or.inl rfl)) (h.not_mem (Or.inr (by decide)))]
    intro hc
    rw [Strings.contains_iff] at hc
    exact absurd (hc.subset (by decide : '[' ∈ "[]".toList)) (h.not_mem (Or.inr (by decide)))
  have hoccurs : dottedPath q = k ∨ Strings.hasPrefix (dottedPath q) (k ++ ".") = true →
      OccursIn k (dottedPath q) := by
    rintro (heq | hprefix)
    · have hself := occursIn_append k ""
      rw [String.append_empty] at hself
      exact heq.symm ▸ hself
    · obtain ⟨rest, hrest⟩ := (Strings.hasPrefix_iff _ _).1 hprefix
      have htext : dottedPath q = k ++ ("." ++ String.ofList rest) := by
        refine String.toList_inj.1 ?_
        rw [← hrest]
        simp
      rw [htext]
      exact occursIn_append k _
  rw [mem_unfiltered_iff hd, hkey, Bool.not_eq_false, leafMasked_iff hleaf, and_iff_right hexpand,
    isListed_literal h, listsOnTheWay_literal ht hleaf h]
  exact ⟨fun hiff => hiff.1, fun himp => ⟨himp, hoccurs⟩⟩

end Literal

end Mapnode
end IntegrityShield
