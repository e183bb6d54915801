/-
# What patterns and rules match

The meaning of the patterns of `shield/pkg/common/profile.go`: which requests a
pattern, a rule and a list of rules fit.  The code computes it
(`matchRequest_some`, `matchBy_some`, `matchWith_some`) wherever it reads no
null entry; a null pattern faults in strict mode for a cluster-scoped request
and matches nothing otherwise (`matchRequest_none`).
-/

import IntegrityShield.Common.Profile
import Mathlib.Data.List.ReduceOption

namespace IntegrityShield
namespace Common

/-- A pattern fits a request: a field is set, every set field matches, and in
strict mode the name is set and exactly that of the request. -/
def RequestPattern.Fits (p : RequestPattern) (reqFields : ReqFields) (strict : Bool) : Prop :=
  (∃ f ∈ p.fields, f.2 ≠ none) ∧
    (strict = true → p.name = some (reqFields.get "Name")) ∧
    ∀ f ∈ p.fields, ∀ pattern ∈ f.2,
      (f.1 = "Name" ∧ strict = true) ∨ matchPattern pattern (reqFields.get f.1) = true

instance (p : RequestPattern) (reqFields : ReqFields) (strict : Bool) :
    Decidable (p.Fits reqFields strict) :=
  inferInstanceAs (Decidable (_ ∧ _ ∧ _))

/-- A rule fits a request: one of its match patterns does and no exclude
pattern. -/
def Rule.Fits (rule : Rule) (reqFields : ReqFields) (strict : Bool) : Prop :=
  (∃ p ∈ rule.matches_.reduceOption, p.Fits reqFields strict) ∧
    ¬ ∃ p ∈ rule.exclude.reduceOption, p.Fits reqFields strict

instance (rule : Rule) (reqFields : ReqFields) (strict : Bool) :
    Decidable (rule.Fits reqFields strict) :=
  inferInstanceAs (Decidable (_ ∧ ¬ _))

/-- Some rule of a list fits a request. -/
def SomeRuleFits (rules : List (Option Rule)) (reqFields : ReqFields) (strict : Bool) : Prop :=
  ∃ rule ∈ rules.reduceOption, rule.Fits reqFields strict

instance (rules : List (Option Rule)) (reqFields : ReqFields) (strict : Bool) :
    Decidable (SomeRuleFits rules reqFields strict) :=
  inferInstanceAs (Decidable (∃ rule ∈ rules.reduceOption, _))

/-- A list of rules without a null entry, and without one in the lists of its
rules. -/
def NoNull (rules : List (Option Rule)) : Prop :=
  none ∉ rules ∧ ∀ rule, some rule ∈ rules → none ∉ rule.matches_ ∧ none ∉ rule.exclude

/-- The set fields of a pattern, as the loop counts and matches them. -/
theorem matchFields_iff (p : RequestPattern) (reqFields : ReqFields) (strict : Bool) :
    p.matchFields reqFields strict = true ↔
      (∃ f ∈ p.fields, f.2 ≠ none) ∧ ∀ f ∈ p.fields, ∀ pattern ∈ f.2,
        if f.1 = "Name" ∧ strict = true then pattern = reqFields.get f.1
        else matchPattern pattern (reqFields.get f.1) = true := by
  have hmem : ∀ fp : String × String,
      fp ∈ (p.fields.filterMap fun f => f.2.map (f.1, ·)) ↔
        ∃ f ∈ p.fields, f.2 = some fp.2 ∧ f.1 = fp.1 := by
    intro fp
    rw [List.mem_filterMap]
    refine exists_congr fun f => and_congr_right fun _ => ?_
    rw [Option.map_eq_some_iff]
    constructor
    · rintro ⟨v, hv, rfl⟩
      exact ⟨hv, rfl⟩
    · rintro ⟨hv, hname⟩
      exact ⟨fp.2, hv, by rw [hname]⟩
  rw [RequestPattern.matchFields, Bool.and_eq_true, decide_eq_true_eq,
    List.length_pos_iff_exists_mem, List.all_eq_true]
  refine and_congr ⟨?_, ?_⟩ ⟨?_, ?_⟩
  · rintro ⟨fp, hfp⟩
    obtain ⟨f, hf, hv, _⟩ := (hmem fp).1 hfp
    exact ⟨f, hf, by rw [hv]; exact Option.some_ne_none _⟩
  · rintro ⟨f, hf, hne⟩
    obtain ⟨v, hv⟩ := Option.ne_none_iff_exists'.1 hne
    exact ⟨(f.1, v), (hmem _).2 ⟨f, hf, hv, rfl⟩⟩
  · intro hall f hf pattern hp
    have h := hall (f.1, pattern) ((hmem _).2 ⟨f, hf, hp, rfl⟩)
    dsimp only at h
    split at h
    · rename_i hname
      rw [if_pos hname]
      exact eq_of_beq h
    · rename_i hname
      rw [if_neg hname]
      exact h
  · intro hall fp hfp
    obtain ⟨f, hf, hv, hname⟩ := (hmem fp).1 hfp
    have h := hall f hf fp.2 hv
    rw [hname] at h
    dsimp only
    split
    · rename_i hn
      rw [if_pos hn] at h
      exact beq_iff_eq.2 h
    · rename_i hn
      rw [if_neg hn] at h
      exact h

theorem name_mem_fields (p : RequestPattern) : ("Name", p.name) ∈ p.fields := by
  simp [RequestPattern.fields]

theorem eq_name_of_mem_fields {p : RequestPattern} {f : String × Option String} (h : f ∈ p.fields)
    (hname : f.1 = "Name") : f.2 = p.name := by
  simp only [RequestPattern.fields, List.mem_cons, List.not_mem_nil, or_false] at h
  rcases h with rfl | rfl | rfl | rfl | rfl | rfl | rfl | rfl <;> first | rfl | simp at hname

/-- The set fields alone, in strict mode with the name set. -/
theorem fits_iff_matchFields (p : RequestPattern) (reqFields : ReqFields) (strict : Bool)
    (hname : strict = true → p.name ≠ none) :
    p.Fits reqFields strict ↔ p.matchFields reqFields strict = true := by
  rw [matchFields_iff, RequestPattern.Fits]
  refine and_congr_right fun _ => ⟨?_, ?_⟩
  · rintro ⟨hexact, hall⟩ f hf pattern hp
    split
    · rename_i hn
      have hpn := eq_name_of_mem_fields hf hn.1
      rw [Option.mem_def.1 hp, hexact hn.2] at hpn
      rw [hn.1]
      exact Option.some.inj hpn
    · rename_i hn
      exact (hall f hf pattern hp).resolve_left hn
  · intro hall
    constructor
    · intro hs
      obtain ⟨n, hn⟩ := Option.ne_none_iff_exists'.1 (hname hs)
      have h := hall _ (name_mem_fields p) n hn
      rw [if_pos ⟨rfl, hs⟩] at h
      rw [hn, h]
    · intro f hf pattern hp
      have h := hall f hf pattern hp
      by_cases hn : f.1 = "Name" ∧ strict = true
      · exact Or.inl hn
      · rw [if_neg hn] at h
        exact Or.inr h

/-- **A pattern that is not null matches what it fits.** -/
theorem matchRequest_some {reqFields : ReqFields} {strict : Bool}
    (hs : strict = true → requestScope reqFields = "Cluster") (p : RequestPattern) :
    RequestPattern.matchRequest (some p) reqFields strict =
      .ok (decide (p.Fits reqFields strict)) := by
  cases strict with
  | false =>
      have hfits := fits_iff_matchFields p reqFields false fun h => nomatch h
      rw [RequestPattern.matchRequest, if_neg (fun h => nomatch h.1)]
      simp only [hfits, Bool.decide_eq_true]
  | true =>
      rw [RequestPattern.matchRequest, if_pos ⟨rfl, hs rfl⟩]
      by_cases hn : p.name = none
      · have hnot : ¬ p.Fits reqFields true := by
          intro h
          rw [h.2.1 rfl] at hn
          cases hn
        simp [Go.deref, hn, hnot]
      · have hfits := fits_iff_matchFields p reqFields true fun _ => hn
        simp [Go.deref, hn, hfits]

/-- A null pattern matches nothing, or faults. -/
theorem matchRequest_none (reqFields : ReqFields) (strict : Bool) :
    RequestPattern.matchRequest none reqFields strict =
      if strict = true ∧ requestScope reqFields = "Cluster" then .error .nilDeref
      else .ok false := by
  rw [RequestPattern.matchRequest]
  split <;> rfl

theorem any_fits_eq (patterns : List (Option RequestPattern)) (reqFields : ReqFields)
    (strict : Bool) :
    (patterns.any fun m => m.any fun p => decide (p.Fits reqFields strict)) =
      decide (∃ p ∈ patterns.reduceOption, p.Fits reqFields strict) := by
  rw [Bool.eq_iff_iff, List.any_eq_true, decide_eq_true_iff]
  constructor
  · rintro ⟨m, hm, h⟩
    cases m with
    | none => cases h
    | some p => exact ⟨p, List.reduceOption_mem_iff.2 hm, of_decide_eq_true h⟩
  · rintro ⟨p, hp, h⟩
    exact ⟨some p, List.reduceOption_mem_iff.1 hp, decide_eq_true h⟩

theorem anyM_matchRequest {reqFields : ReqFields} {strict : Bool}
    (hs : strict = true → requestScope reqFields = "Cluster")
    {patterns : List (Option RequestPattern)} (hnull : none ∉ patterns) :
    (patterns.anyM fun m => RequestPattern.matchRequest m reqFields strict) =
      .ok (decide (∃ p ∈ patterns.reduceOption, p.Fits reqFields strict)) := by
  have hcall : ∀ m ∈ patterns, RequestPattern.matchRequest m reqFields strict =
      .ok (m.any fun p => decide (p.Fits reqFields strict)) := by
    intro m hm
    cases m with
    | none => exact absurd hm hnull
    | some p => exact matchRequest_some hs p
  rw [Go.anyM_eq_any hcall, any_fits_eq]

/-- A rule matches what it fits if both its loops find what fits. -/
theorem matchBy_of_anyM {reqFields : ReqFields} {strict : Bool} {rule : Rule}
    (hmatch : (rule.matches_.anyM fun m => RequestPattern.matchRequest m reqFields strict) =
      .ok (decide (∃ p ∈ rule.matches_.reduceOption, p.Fits reqFields strict)))
    (hexclude : (rule.exclude.anyM fun m => RequestPattern.matchRequest m reqFields strict) =
      .ok (decide (∃ p ∈ rule.exclude.reduceOption, p.Fits reqFields strict))) :
    Rule.matchBy strict (some rule) reqFields = .ok (decide (rule.Fits reqFields strict)) := by
  simp only [Rule.matchBy, Go.deref, bind, Except.bind, pure, Except.pure, hmatch, hexclude]
  by_cases h : ∃ p ∈ rule.matches_.reduceOption, p.Fits reqFields strict
  · rw [decide_eq_true h, if_pos rfl, Except.ok.injEq, Bool.eq_iff_iff, Bool.not_eq_true',
      decide_eq_false_iff_not, decide_eq_true_iff]
    exact ⟨fun hno => ⟨h, hno⟩, fun hfits => hfits.2⟩
  · rw [decide_eq_false h, if_neg Bool.false_ne_true, Except.ok.injEq, eq_comm,
      decide_eq_false_iff_not]
    exact fun hfits => h hfits.1

/-- **A rule without null entries matches what it fits.** -/
theorem matchBy_some {reqFields : ReqFields} {strict : Bool}
    (hs : strict = true → requestScope reqFields = "Cluster") {rule : Rule}
    (hm : none ∉ rule.matches_) (he : none ∉ rule.exclude) :
    Rule.matchBy strict (some rule) reqFields = .ok (decide (rule.Fits reqFields strict)) :=
  matchBy_of_anyM (anyM_matchRequest hs hm) (anyM_matchRequest hs he)

/-- In loose mode a null pattern is passed over. -/
theorem anyM_matchLoose (patterns : List (Option RequestPattern)) (reqFields : ReqFields) :
    (patterns.anyM fun m => RequestPattern.matchLoose m reqFields) =
      .ok (decide (∃ p ∈ patterns.reduceOption, p.Fits reqFields false)) := by
  have hcall : ∀ m ∈ patterns, RequestPattern.matchLoose m reqFields =
      .ok (m.any fun p => decide (p.Fits reqFields false)) := by
    intro m _
    cases m with
    | none => exact (matchRequest_none reqFields false).trans (if_neg fun h => nomatch h.1)
    | some p =>
        have hs : false = true → requestScope reqFields = "Cluster" := fun h => nomatch h
        exact matchRequest_some hs p
  rw [Go.anyM_eq_any hcall, any_fits_eq]

/-- So a rule that is not null returns. -/
theorem matchBy_loose (rule : Rule) (reqFields : ReqFields) :
    Rule.matchBy false (some rule) reqFields = .ok (decide (rule.Fits reqFields false)) :=
  matchBy_of_anyM (anyM_matchLoose rule.matches_ reqFields)
    (anyM_matchLoose rule.exclude reqFields)

/-- An attribute pattern fits a request: one of its match patterns does. -/
def AttrsPattern.Fits (pattern : AttrsPattern) (reqFields : ReqFields) : Prop :=
  ∃ p ∈ pattern.matches_.reduceOption, p.Fits reqFields false

instance (pattern : AttrsPattern) (reqFields : ReqFields) : Decidable (pattern.Fits reqFields) :=
  inferInstanceAs (Decidable (∃ p ∈ pattern.matches_.reduceOption, _))

theorem matchWith_some (pattern : AttrsPattern) (reqFields : ReqFields) :
    AttrsPattern.matchWith (some pattern) reqFields = .ok (decide (pattern.Fits reqFields)) :=
  anyM_matchLoose pattern.matches_ reqFields

end Common
end IntegrityShield
