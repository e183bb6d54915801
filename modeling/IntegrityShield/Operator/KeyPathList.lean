/-
# Key paths of the operator

The operator and the server agree on the keys through path names.  The operator mounts
the key of a key configuration under its name and type, and `BuildShieldConfigForIShield`
lists the mounted paths; the server finds the keys of a signer by looking for
`/name/type/` anywhere in those paths.

A path that the operator builds has just three slashes if no name and no file name has
one, and the text looked for has three at least, so it occurs in the path only at its
beginning (`contains_keyPath`): no name can be taken for another one, or for a type.
-/

import IntegrityShield.Common.Policy
import IntegrityShield.Shield.Config

namespace IntegrityShield
namespace Operator

open Common Shield

/-- `SignatureTypeDefault`. -/
def signatureTypeDefault : String := ""

/-- `SignatureTypePGP`. -/
def signatureTypePGP : String := "pgp"

/-- `SignatureTypeX509`. -/
def signatureTypeX509 : String := "x509"

/-- `DefaultKeyringFilename`. -/
def defaultKeyringFilename : String := "pubring.gpg"

/-- `KeyConfig`. -/
structure KeyConfig where
  name : String := ""
  fileName : String := ""
  signatureType : String := ""

/-- The parts of the `IntegrityShield` resource that the key paths come from. -/
structure IntegrityShieldSpec where
  shieldConfig : ShieldConfig := {}
  keyConfig : List KeyConfig := []

namespace KeyConfig

/-- The type of a key configuration: the default is PGP. -/
def sigType (keyConf : KeyConfig) : String :=
  if keyConf.signatureType = signatureTypeDefault then signatureTypePGP else keyConf.signatureType

/-- The path that is built for a key configuration, if one is. -/
def keyPath (keyConf : KeyConfig) : Option String :=
  let sigType := keyConf.sigType
  if sigType = signatureTypePGP then
    let fileName := if keyConf.fileName = "" then defaultKeyringFilename else keyConf.fileName
    some ("/" ++ keyConf.name ++ "/" ++ sigType ++ "/" ++ fileName)
  else if sigType = signatureTypeX509 then some ("/" ++ keyConf.name ++ "/" ++ sigType ++ "/")
  else none

/-- Neither the name nor the file name has a slash. -/
def Slashless (keyConf : KeyConfig) : Prop :=
  '/' ∉ keyConf.name.toList ∧ '/' ∉ keyConf.fileName.toList

end KeyConfig

/-- The list of key paths in `BuildShieldConfigForIShield`: a list that is there is kept. -/
def buildKeyPathList (spec : IntegrityShieldSpec) : List String :=
  if spec.shieldConfig.keyPathList.length = 0 then spec.keyConfig.filterMap KeyConfig.keyPath
  else spec.shieldConfig.keyPathList

/-- The type that is looked for under each kind of key. -/
def kindType : SignerConfig.KeyKind → String
  | .pgp => signatureTypePGP
  | .x509 => signatureTypeX509

/-! ## Where a name occurs in a path -/

/-- A text with three slashes that begins with one holds another such text only at its
beginning, and then their parts are the same. -/
theorem isInfix_of_slashes {a b c x y : List Char} (ha : '/' ∉ a) (hb : '/' ∉ b) (hc : '/' ∉ c)
    (hy : '/' ∉ y) :
    '/' :: (x ++ '/' :: (y ++ ['/'])) <:+: '/' :: (a ++ '/' :: (b ++ '/' :: c)) ↔
      x = a ∧ y = b := by
  constructor
  · rintro ⟨before, after, h⟩
    have hcount := congrArg (List.count '/') h
    simp only [List.count_append, List.count_cons_self, List.count_nil,
      List.count_eq_zero_of_not_mem ha, List.count_eq_zero_of_not_mem hb,
      List.count_eq_zero_of_not_mem hc, List.count_eq_zero_of_not_mem hy] at hcount
    have hx : '/' ∉ x := List.count_eq_zero.1 (by omega)
    -- the first slash of the path is the first one of the text
    have hbefore : before = [] := by
      cases before with
      | nil => rfl
      | cons first rest =>
          have hfirst : first = '/' := (List.cons_eq_cons.1 h).1
          rw [hfirst, List.count_cons_self] at hcount
          omega
    subst hbefore
    simp only [List.nil_append, List.cons_append, List.append_assoc, List.cons_eq_cons,
      true_and] at h
    obtain ⟨hxa, hrest⟩ := Strings.append_cons_inj_of_not_mem hx ha h
    exact ⟨hxa, (Strings.append_cons_inj_of_not_mem hy hb hrest).1⟩
  · rintro ⟨rfl, rfl⟩
    exact ⟨[], c, by simp⟩

/-- The name and the type looked for are those of the path. -/
theorem contains_slashes {name type file keyConfName wanted : String} (hname : '/' ∉ name.toList)
    (htype : '/' ∉ type.toList) (hfile : '/' ∉ file.toList) (hwanted : '/' ∉ wanted.toList) :
    Strings.contains ("/" ++ name ++ "/" ++ type ++ "/" ++ file)
      ("/" ++ keyConfName ++ "/" ++ wanted ++ "/") = true ↔ keyConfName = name ∧ wanted = type := by
  rw [Strings.contains_iff, ← String.toList_inj, ← String.toList_inj,
    ← isInfix_of_slashes hname htype hfile hwanted]
  simp only [String.toList_append, List.append_assoc]
  rfl

namespace KeyConfig

/-- The kind of key that a key configuration mounts. -/
def kind (keyConf : KeyConfig) : Option SignerConfig.KeyKind :=
  if keyConf.sigType = signatureTypePGP then some .pgp
  else if keyConf.sigType = signatureTypeX509 then some .x509
  else none

theorem kind_eq_some_iff (keyConf : KeyConfig) (k : SignerConfig.KeyKind) :
    keyConf.kind = some k ↔ keyConf.sigType = kindType k := by
  unfold kind
  split
  · rename_i h
    rw [h]
    cases k <;> decide
  · rename_i hpgp
    split
    · rename_i h
      rw [h]
      cases k <;> decide
    · rename_i hx509
      cases k with
      | pgp => exact ⟨fun h => (by cases h), fun h => absurd h hpgp⟩
      | x509 => exact ⟨fun h => (by cases h), fun h => absurd h hx509⟩

/-- A path that is built begins with the name and the type, and the rest of it is a file name. -/
theorem keyPath_eq_some {keyConf : KeyConfig} {path : String} (h : keyConf.keyPath = some path)
    (hfile : '/' ∉ keyConf.fileName.toList) :
    ∃ k file, keyConf.kind = some k ∧ '/' ∉ file.toList ∧
      path = "/" ++ keyConf.name ++ "/" ++ kindType k ++ "/" ++ file := by
  unfold keyPath at h
  dsimp only at h
  split at h
  · rename_i hpgp
    obtain rfl := Option.some.inj h
    refine ⟨.pgp, _, if_pos hpgp, ?_, by rw [hpgp]; rfl⟩
    split
    · decide
    · exact hfile
  · rename_i hpgp
    split at h
    · rename_i hx509
      obtain rfl := Option.some.inj h
      refine ⟨.x509, "", (if_neg hpgp).trans (if_pos hx509), by decide, ?_⟩
      rw [hx509, String.append_empty]
      rfl
    · cases h

end KeyConfig

/-- A key configuration that a signer of an applicable policy uses. -/
def Selects (config : SignerConfig) (ns keyConfName : String) : Prop :=
  ∃ policy ∈ config.policies, SignerConfig.appliesTo policy ns = true ∧
    ∃ signer ∈ config.signers, signer.name ∈ policy.signers ∧ signer.keyConfig = keyConfName

instance (config : SignerConfig) (ns keyConfName : String) :
    Decidable (Selects config ns keyConfName) :=
  inferInstanceAs (Decidable (∃ policy ∈ config.policies, _ ∧ ∃ signer ∈ config.signers, _ ∧ _))

theorem mem_candidateKeyConfigs_iff (config : SignerConfig) (ns keyConfName : String) :
    keyConfName ∈ config.candidateKeyConfigs ns ↔ Selects config ns keyConfName := by
  simp only [SignerConfig.candidateKeyConfigs, Selects, List.mem_flatMap, List.mem_filter,
    List.mem_map, beq_iff_eq]
  constructor
  · rintro ⟨policy, ⟨hpolicy, happlies⟩, signerName, hnamed, signer, ⟨hsigner, rfl⟩, hkey⟩
    exact ⟨policy, hpolicy, happlies, signer, hsigner, hnamed, hkey⟩
  · rintro ⟨policy, hpolicy, happlies, signer, hsigner, hnamed, hkey⟩
    exact ⟨policy, ⟨hpolicy, happlies⟩, signer.name, hnamed, signer, ⟨hsigner, rfl⟩, hkey⟩

theorem pgpPattern_eq (keyConfName : String) :
    "/" ++ keyConfName ++ "/pgp/" = "/" ++ keyConfName ++ "/" ++ kindType .pgp ++ "/" := by
  have hliteral : "/pgp/" = "/" ++ kindType .pgp ++ "/" := by decide
  rw [hliteral, ← String.append_assoc, ← String.append_assoc]

theorem x509Pattern_eq (keyConfName : String) :
    "/" ++ keyConfName ++ "/x509/" = "/" ++ keyConfName ++ "/" ++ kindType .x509 ++ "/" := by
  have hliteral : "/x509/" = "/" ++ kindType .x509 ++ "/" := by decide
  rw [hliteral, ← String.append_assoc, ← String.append_assoc]

theorem kindType_inj {j k : SignerConfig.KeyKind} : kindType j = kindType k ↔ j = k := by
  cases j <;> cases k <;> decide

/-- The kind under which the server files a path: its own one, if a candidate has its name. -/
theorem keyKind_path (candidates : List String) {name file : String} (k : SignerConfig.KeyKind)
    (hname : '/' ∉ name.toList) (hfile : '/' ∉ file.toList) :
    SignerConfig.keyKind candidates ("/" ++ name ++ "/" ++ kindType k ++ "/" ++ file) =
      if name ∈ candidates then some k else none := by
  have hslash : ∀ j, '/' ∉ (kindType j).toList := by
    intro j
    cases j <;> decide
  have hcontains : ∀ keyConfName j,
      Strings.contains ("/" ++ name ++ "/" ++ kindType k ++ "/" ++ file)
        ("/" ++ keyConfName ++ "/" ++ kindType j ++ "/") = true ↔ keyConfName = name ∧ j = k :=
    fun _ j => (contains_slashes hname (hslash k) hfile (hslash j)).trans
      (and_congr_right fun _ => kindType_inj)
  have hstep : ∀ keyConfName : String,
      (if Strings.contains ("/" ++ name ++ "/" ++ kindType k ++ "/" ++ file)
          ("/" ++ keyConfName ++ "/pgp/") then some SignerConfig.KeyKind.pgp
        else if Strings.contains ("/" ++ name ++ "/" ++ kindType k ++ "/" ++ file)
          ("/" ++ keyConfName ++ "/x509/") then some .x509
        else none) = if keyConfName = name then some k else none := by
    intro keyConfName
    rw [pgpPattern_eq, x509Pattern_eq]
    simp only [hcontains]
    by_cases hn : keyConfName = name
    · cases k <;> simp [hn]
    · simp [hn]
  unfold SignerConfig.keyKind
  simp only [hstep]
  induction candidates with
  | nil => rfl
  | cons keyConfName rest ih =>
      rw [List.findSome?_cons, ih]
      by_cases hn : keyConfName = name
      · simp [hn]
      · simp [hn, Ne.symm hn]

/-- The server selects a path that was built for a key configuration exactly if it is of the
wanted kind and its name is selected. -/
theorem keyKind_keyPath (config : SignerConfig) (ns : String) {keyConf : KeyConfig}
    (hslash : keyConf.Slashless) {path : String} (hpath : keyConf.keyPath = some path)
    (k : SignerConfig.KeyKind) :
    (SignerConfig.keyKind (config.candidateKeyConfigs ns) path == some k) =
      decide (keyConf.sigType = kindType k ∧ Selects config ns keyConf.name) := by
  obtain ⟨j, file, hkind, hfile, rfl⟩ := keyConf.keyPath_eq_some hpath hslash.2
  rw [keyKind_path _ _ hslash.1 hfile, Bool.eq_iff_iff, decide_eq_true_iff, beq_iff_eq,
    ← keyConf.kind_eq_some_iff, hkind, ← mem_candidateKeyConfigs_iff]
  by_cases hmem : keyConf.name ∈ config.candidateKeyConfigs ns
  · simp [hmem]
  · simp [hmem]

/-- **The server selects the keys that the operator mounted**: of the paths that were built,
in their order, those of the wanted type whose key configuration is used by a signer of
a policy that applies. -/
theorem getCandidatePubkeys_buildKeyPathList (spec : IntegrityShieldSpec)
    (hpreset : spec.shieldConfig.keyPathList = [])
    (hslash : ∀ keyConf ∈ spec.keyConfig, keyConf.Slashless)
    (config : SignerConfig) (ns : String) (k : SignerConfig.KeyKind) :
    config.getCandidatePubkeys (buildKeyPathList spec) ns k =
      (spec.keyConfig.filter fun keyConf =>
        decide (keyConf.sigType = kindType k ∧ Selects config ns keyConf.name)).filterMap
          KeyConfig.keyPath := by
  have hbuild : buildKeyPathList spec = spec.keyConfig.filterMap KeyConfig.keyPath := by
    rw [buildKeyPathList, hpreset]
    rfl
  rw [hbuild, SignerConfig.getCandidatePubkeys, List.filter_filterMap, List.filterMap_filter]
  refine List.filterMap_congr fun keyConf hmem => ?_
  cases hpath : keyConf.keyPath with
  | none => exact (ite_self none).symm
  | some path => rw [Option.filter_some, keyKind_keyPath config ns (hslash keyConf hmem) hpath k]

/-- One key configuration of the default type and one for certificates, and a name that is
the type of another. -/
theorem getCandidatePubkeys_buildKeyPathList_pgp :
    let spec : IntegrityShieldSpec := {
      keyConfig := [{ name := "sample-signer-keyconfig" },
        { name := "pgp", signatureType := "x509" },
        { name := "other", fileName := "pubring-b.gpg", signatureType := "pgp" }] }
    let config : SignerConfig := {
      policies := [{ namespaces := ["*"], signers := ["SampleSigner"] }]
      signers := [{ name := "SampleSigner", keyConfig := "pgp" },
        { name := "SampleSigner", keyConfig := "sample-signer-keyconfig" }] }
    config.getCandidatePubkeys (buildKeyPathList spec) "secure-ns" .pgp =
        ["/sample-signer-keyconfig/pgp/pubring.gpg"] ∧
      config.getCandidatePubkeys (buildKeyPathList spec) "secure-ns" .x509 = ["/pgp/x509/"] := by
  intro spec config
  have hslash : ∀ keyConf ∈ spec.keyConfig, keyConf.Slashless := by
    simp only [spec, List.forall_mem_cons]
    refine ⟨?_, ?_, ?_, fun _ h => absurd h List.not_mem_nil⟩ <;> exact ⟨by decide, by decide⟩
  rw [getCandidatePubkeys_buildKeyPathList spec rfl hslash,
    getCandidatePubkeys_buildKeyPathList spec rfl hslash]
  decide +kernel

end Operator
end IntegrityShield
