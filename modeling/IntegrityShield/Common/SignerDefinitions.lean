/-
# Several definitions of one signer

`GetCandidatePubkeys` of `shield/pkg/common/policy.go` goes through every
definition of a name that an applying policy lists, and tries the keys of each.
`Match` looks a name up in `GetSignerMap`, where a later definition of the name
has overwritten the earlier ones.  A signer that only an earlier definition
accepts, as while keys are rotated, has its signature verified and is then
refused (`matchConfig_overwritten`); a signer is accepted exactly if the last
definition of a name accepts it in a policy that is come to
(`exists_matchConfig_iff`).
-/

import IntegrityShield.Common.Policy

namespace IntegrityShield
namespace Common
namespace SignerConfig

/-- `si` is the last definition of the name. -/
def LastDefinition (self : SignerConfig) (signerName : String) (si : SignerCondition) : Prop :=
  ∃ pre post, self.signers = pre ++ si :: post ∧ si.name = signerName ∧
    ∀ later ∈ post, later.name ≠ signerName

/-- **The map of signers holds the last definition of each name.** -/
theorem lookup_getSignerMap_iff (self : SignerConfig) (signerName : String)
    (conditions : List SubjectCondition) :
    self.getSignerMap.lookup signerName = some conditions ↔
      ∃ si, self.LastDefinition signerName si ∧ subjectConditions si = conditions := by
  rw [getSignerMap, GoMap.lookup_writes, GoMap.lastAt_eq_some_iff]
  constructor
  · rintro ⟨pre, post, hsplit, hpost⟩
    obtain ⟨pre, rest, hsigners, rfl, hrest⟩ := List.map_eq_append_iff.1 hsplit
    obtain ⟨si, post, rfl, hsi, rfl⟩ := List.map_eq_cons_iff.1 hrest
    obtain ⟨hname, hconditions⟩ := Prod.mk.inj hsi
    exact ⟨si, ⟨pre, post, hsigners, hname,
      fun later hlater => hpost _ (List.mem_map_of_mem hlater)⟩, hconditions⟩
  · rintro ⟨si, ⟨pre, post, hsigners, rfl, hpost⟩, rfl⟩
    refine ⟨_, _, by rw [hsigners, List.map_append, List.map_cons], ?_⟩
    simpa only [List.forall_mem_map] using hpost

section Accepted

variable [UndefinedBigInt]

/-- A definition accepts a signer: a subject of it matches, and a verified path is under its key
configuration. -/
def Accepts (si : SignerCondition) (signer : SignerInfo) (verifiedKeyPathList : List String) :
    Prop :=
  ∃ sj ∈ si.subjects, (⟨si.name, si.keyConfig, sj⟩ : SubjectCondition).matchSigner signer = .ok true
    ∧ ∃ keyPath ∈ verifiedKeyPathList,
      Strings.contains keyPath ("/" ++ si.keyConfig ++ "/") = true

/-- Some definition of a name that an applying policy lists accepts the signer. -/
def SomeDefinitionAccepts (self : SignerConfig) (ns : String) (signer : SignerInfo)
    (verifiedKeyPathList : List String) : Prop :=
  ∃ spc ∈ self.policies, appliesTo spc ns = true ∧ ∃ signerName ∈ spc.signers,
    ∃ si ∈ self.signers, si.name = signerName ∧ Accepts si signer verifiedKeyPathList

/-- The last definition of a name that an applying policy lists accepts the signer, and no policy
up to that one compares a serial number which is not there. -/
def LastDefinitionAccepts (self : SignerConfig) (ns : String) (signer : SignerInfo)
    (verifiedKeyPathList : List String) : Prop :=
  ∃ pre spc post, self.policies = pre ++ spc :: post ∧
    (∀ policy ∈ pre ++ [spc], ¬self.ComparesNil policy signer verifiedKeyPathList) ∧
    appliesTo spc ns = true ∧ ∃ signerName ∈ spc.signers,
      ∃ si, self.LastDefinition signerName si ∧ Accepts si signer verifiedKeyPathList

theorem matchConditions_subjectConditions {si : SignerCondition} {signer : SignerInfo}
    {verifiedKeyPathList : List String} {hit : Bool}
    (h : matchConditions signer verifiedKeyPathList (subjectConditions si) = .ok hit) :
    hit = true ↔ Accepts si signer verifiedKeyPathList := by
  rw [matchConditions_eq_ok h, subjectConditions, Accepts]
  simp only [List.mem_map, exists_exists_and_eq_and]

/-- The signers of a policy that return hit exactly if the last definition of one accepts. -/
theorem matchSigners_eq_ok {self : SignerConfig} {spc : SignerConfigCondition}
    {signer : SignerInfo} {verifiedKeyPathList : List String} {hit : Bool}
    (h : self.matchSigners spc signer verifiedKeyPathList = .ok hit) :
    hit = true ↔ ∃ signerName ∈ spc.signers,
      ∃ si, self.LastDefinition signerName si ∧ Accepts si signer verifiedKeyPathList := by
  cases hit with
  | true =>
      refine iff_of_true rfl ?_
      obtain ⟨signerName, hname, hsigner⟩ := Go.exists_of_anyM h
      cases hlookup : self.getSignerMap.lookup signerName with
      | none =>
          simp only [hlookup] at hsigner
          cases hsigner
      | some conditions =>
          simp only [hlookup] at hsigner
          obtain ⟨si, hlast, rfl⟩ := (self.lookup_getSignerMap_iff _ _).1 hlookup
          exact ⟨signerName, hname, si, hlast, (matchConditions_subjectConditions hsigner).1 rfl⟩
  | false =>
      refine iff_of_false Bool.false_ne_true ?_
      rintro ⟨signerName, hname, si, hlast, haccepts⟩
      have hsigner := Go.anyM_eq_false_iff.1 h signerName hname
      simp only [(self.lookup_getSignerMap_iff _ _).2 ⟨si, hlast, rfl⟩] at hsigner
      exact Bool.false_ne_true ((matchConditions_subjectConditions hsigner).2 haccepts)

/-- A policy's signers return unless a serial number which is not there is compared. -/
theorem exists_matchSigners_iff (self : SignerConfig) (spc : SignerConfigCondition)
    (signer : SignerInfo) (verifiedKeyPathList : List String) :
    (∃ hit, self.matchSigners spc signer verifiedKeyPathList = .ok hit) ↔
      ¬self.ComparesNil spc signer verifiedKeyPathList := by
  have herror := self.matchSigners_eq_error_iff spc signer verifiedKeyPathList .nilDeref
  cases hsigners : self.matchSigners spc signer verifiedKeyPathList with
  | ok hit =>
      refine iff_of_true ⟨hit, rfl⟩ fun hnil => ?_
      rw [herror.2 ⟨rfl, hnil⟩] at hsigners
      cases hsigners
  | error e =>
      have hnil := ((self.matchSigners_eq_error_iff spc signer verifiedKeyPathList e).1 hsigners).2
      exact iff_of_false (fun ⟨_, h⟩ => by cases h) (not_not_intro hnil)

/-- **Which signers are accepted.** -/
theorem exists_matchConfig_iff (self : SignerConfig) (ns : String) (signer : SignerInfo)
    (verifiedKeyPathList : List String) :
    (∃ spc, self.matchConfig ns signer verifiedKeyPathList = .ok (some spc)) ↔
      self.LastDefinitionAccepts ns signer verifiedKeyPathList := by
  have hreturns : ∀ policy : SignerConfigCondition,
      (∃ hit, (do
        let signerMatched ← self.matchSigners policy signer verifiedKeyPathList
        return appliesTo policy ns && signerMatched : Go Bool) = .ok hit) ↔
      ¬self.ComparesNil policy signer verifiedKeyPathList := by
    intro policy
    rw [← exists_matchSigners_iff]
    constructor
    · rintro ⟨_, h⟩
      obtain ⟨hit, hhit, _⟩ := Go.bind_eq_ok.1 h
      exact ⟨hit, hhit⟩
    · rintro ⟨hit, hhit⟩
      exact ⟨_, by rw [hhit, Go.ok_bind]; rfl⟩
  rw [matchConfig, Go.exists_findM_iff, LastDefinitionAccepts]
  refine exists_congr fun pre => exists_congr fun spc => exists_congr fun post =>
    and_congr_right fun _ => ?_
  rw [List.forall_mem_append, List.forall_mem_singleton, and_assoc]
  refine and_congr (forall₂_congr fun policy _ => hreturns policy) ?_
  constructor
  · intro h
    obtain ⟨hit, hhit, hboth⟩ := Go.bind_eq_ok.1 h
    obtain ⟨happlies, rfl⟩ := Bool.and_eq_true_iff.1 (Except.ok.inj hboth)
    exact ⟨(self.exists_matchSigners_iff ..).1 ⟨true, hhit⟩, happlies,
      (matchSigners_eq_ok hhit).1 rfl⟩
  · rintro ⟨hnil, happlies, hlast⟩
    obtain ⟨hit, hhit⟩ := (self.exists_matchSigners_iff ..).2 hnil
    rw [hhit, Go.ok_bind, happlies, (matchSigners_eq_ok hhit).2 hlast]
    rfl

/-- **Whether the definitions whose keys are tried can be accepted.**  Of several definitions of a
name only the last one can. -/
theorem accepts_of_someDefinition_iff (self : SignerConfig) (ns : String) (signer : SignerInfo)
    (verifiedKeyPathList : List String) :
    (self.SomeDefinitionAccepts ns signer verifiedKeyPathList →
      ∃ spc, self.matchConfig ns signer verifiedKeyPathList = .ok (some spc)) ↔
    (self.SomeDefinitionAccepts ns signer verifiedKeyPathList →
      self.LastDefinitionAccepts ns signer verifiedKeyPathList) := by
  rw [exists_matchConfig_iff]

end Accepted

/-- A signer whose keys are being rotated: its definition with the old keys stands before the one
with the new keys. -/
def rotatedKeys : SignerConfig where
  policies := [{ scope := "Namespaced", namespaces := ["*"], signers := ["signer"] }]
  signers := [
    { name := "signer", keyConfig := "old", subjects := [{ email := "alice@example.com" }] },
    { name := "signer", keyConfig := "new", subjects := [{ email := "alice@example.com" }] }]

/-- The old keys are tried, and what they verify is refused. -/
theorem matchConfig_overwritten :
    let _ : UndefinedBigInt := ⟨fun _ => 0⟩
    let signer : SignerInfo := { email := "alice@example.com" }
    let keyPaths := ["/old/pgp/pubring.gpg"]
    rotatedKeys.getCandidatePubkeys keyPaths "ns" .pgp = keyPaths ∧
      rotatedKeys.SomeDefinitionAccepts "ns" signer keyPaths ∧
      rotatedKeys.matchConfig "ns" signer keyPaths = .ok none := by
  refine ⟨by decide +kernel, ?_, by decide +kernel⟩
  refine ⟨_, List.mem_singleton_self _, by decide +kernel, _, List.mem_singleton_self _, _,
    List.mem_cons_self, rfl, _, List.mem_singleton_self _, by decide +kernel, _,
    List.mem_singleton_self _, by decide +kernel⟩

end SignerConfig
end Common
end IntegrityShield
