/-
# Helm releases and their metadata

`MatchReleaseSecret`, `VerifyPackage` and `VerifyChartAndProv` of
`shield/pkg/plugins/helm/helm.go`.  A release is compared with its `HelmReleaseMetadata` in three
parts, the manifest, the chart and the values; then the chart of the metadata is verified under the
key rings of the candidate keys.

The helm library reads charts, provenances and key rings from files, so both write what they were
given to files of fixed names and pass the names on.  Here the library is a record of functions of
the contents (`Library`), and the files are a map that the calls change (`Files`).

The rendering of the release's chart is compared with itself.  So a release is accepted if the
manifests are equal, the written package loads and the values have no difference, whatever its chart
is (`matchReleaseSecret_true_iff`).
-/

import IntegrityShield.Shield.Message

namespace IntegrityShield
namespace Helm

open Common Mapnode Shield

variable {Chart : Type}

/-! ## Libraries and files -/

/-- `release.Release`, as far as it is read. -/
structure Release (Chart : Type) where
  manifest : String
  chart : Option Chart
  config : JsonMap

/-- `json.Unmarshal` into a pointer to a release; `null` leaves it nil. -/
class ReleaseDecoder (Chart : Type) where
  unmarshalRelease : String → Except String (Option (Release Chart))

/-- What is called of the helm library, as functions of the contents of the files it reads, and the
errors of the file system. -/
structure Library (Chart : Type) where
  /-- `loader.Load` of a package. -/
  load : Option Bytes → Except String Chart
  /-- `json.Marshal` of a chart, its error ignored. -/
  marshalChart : Option Chart → String
  /-- The error of `provenance.NewFromKeyring`. -/
  keyringError : Option Bytes → Option String
  /-- The first identity of `SignedBy` that `Signatory.Verify` leaves for a key ring, a provenance
  and a package, its error ignored. -/
  signedBy : Option Bytes → Option Bytes → Option Bytes → Option (Option PgpSigner)
  /-- The error of `ioutil.WriteFile` for a path that cannot be written. -/
  writeError : String → Option String

/-- The contents of the files. -/
abbrev Files := String → Option Bytes

/-- `ioutil.WriteFile`, its error left to the caller. -/
def Library.writeFile (lib : Library Chart) (files : Files) (path : String) (content : Bytes) :
    Files :=
  match lib.writeError path with
  | some _ => files
  | none => Function.update files path (some content)

def tempDir : String := "/tmp/"

def tmpPkgFile : String := "/tmp/tmp.tgz"

/-- `filepath.Join` of the directory and the name. -/
def chartPath : String := tempDir ++ "chart.tgz"

def provPath : String := tempDir ++ "chart.tgz.prov"

theorem Library.writeFile_of_error {lib : Library Chart} {path err : String}
    (h : lib.writeError path = some err) (files : Files) (content : Bytes) :
    lib.writeFile files path content = files := by
  rw [writeFile, h]

theorem Library.writeFile_of_writable {lib : Library Chart} {path : String}
    (h : lib.writeError path = none) (files : Files) (content : Bytes) :
    lib.writeFile files path content = Function.update files path (some content) := by
  rw [writeFile, h]

section Match

variable [Outside]

/-! ## A release and its metadata -/

/-- The parts of a `HelmReleaseMetadata`: bytes, which JSON has in base64. -/
def hrmManifest (hrmNode : Node) : String := base64decode (getNodeString hrmNode "spec.manifest")

def hrmChartTgzBytes (hrmNode : Node) : Bytes := base64decode (getNodeString hrmNode "spec.chart")

def hrmConfigYamlBytes (hrmNode : Node) : Bytes :=
  base64decode (getNodeString hrmNode "spec.config")

/-- What is left to compare when the manifests are equal. -/
structure Comparison (Chart : Type) where
  rlsChart : Option Chart
  rlsConfig : JsonMap
  hrmChart : Bytes
  hrmConfig : Bytes

def Comparison.of (rlsObj : Release Chart) (hrmNode : Node) : Comparison Chart where
  rlsChart := rlsObj.chart
  rlsConfig := rlsObj.config
  hrmChart := hrmChartTgzBytes hrmNode
  hrmConfig := hrmConfigYamlBytes hrmNode

/-- `MatchReleaseSecret` up to the comparison of the manifests; `none` if it has returned false. -/
def compareManifests [ReleaseDecoder Chart] (rls hrm : String) : Go (Option (Comparison Chart)) :=
  if rls = "" ∨ hrm = "" then return none
  else match ReleaseDecoder.unmarshalRelease rls with
    | .error _ => return none
    | .ok rlsObj => do
        let rlsObj ← Go.deref rlsObj
        match newFromBytes (some hrm) with
        | .error _ => return none
        | .ok hrmNode =>
            if rlsObj.manifest ≠ hrmManifest hrmNode then return none
            else return some (.of rlsObj hrmNode)

/-- The comparison of the values. -/
def Comparison.configsMatch (c : Comparison Chart) : Bool :=
  match newFromYamlBytes c.hrmConfig with
  | .error _ => false
  | .ok hrmConfigNode => ((newFromMap c.rlsConfig).diff hrmConfigNode).isNone

/-- `MatchReleaseSecret` from the loading of the package on. -/
def Library.compareCharts (lib : Library Chart) (c : Comparison Chart) (package : Option Bytes) :
    Bool :=
  match lib.load package with
  | .error _ => false
  | .ok _ =>
      -- the other side of the comparison, the loaded chart, is rendered for the log only
      let rlsChartBytes := lib.marshalChart c.rlsChart
      if rlsChartBytes ≠ rlsChartBytes then false else c.configsMatch

/-- `MatchReleaseSecret`, and the files as it leaves them. -/
def matchReleaseSecret [ReleaseDecoder Chart] (lib : Library Chart) (rls hrm : String)
    (files : Files) : Go (Bool × Files) := do
  match ← compareManifests rls hrm with
  | none => return (false, files)
  | some c =>
      let files := lib.writeFile files tmpPkgFile c.hrmChart
      return (lib.compareCharts c (files tmpPkgFile), files)

/-! ## When a release is accepted -/

/-- The release and the metadata that the texts are decoded to. -/
structure Decodes [ReleaseDecoder Chart] (rls hrm : String) (release : Release Chart)
    (metadata : Node) : Prop where
  rls_ne : rls ≠ ""
  hrm_ne : hrm ≠ ""
  release_eq : ReleaseDecoder.unmarshalRelease rls = .ok (some release)
  metadata_eq : newFromBytes (some hrm) = .ok metadata

def SameManifest (release : Release Chart) (metadata : Node) : Prop :=
  release.manifest = hrmManifest metadata

/-- The chart of the release and the one loaded from the metadata have one rendering. -/
def SameChart (lib : Library Chart) (release : Release Chart) (metadata : Node) : Prop :=
  ∃ chart, lib.load (some (hrmChartTgzBytes metadata)) = .ok chart ∧
    lib.marshalChart release.chart = lib.marshalChart (some chart)

def SameConfig (release : Release Chart) (metadata : Node) : Prop :=
  ∃ config, newFromYamlBytes (hrmConfigYamlBytes metadata) = .ok config ∧
    (newFromMap release.config).diff config = none

/-- The package of the metadata loads, once it is written. -/
def Loads (lib : Library Chart) (files : Files) (metadata : Node) : Prop :=
  ∃ chart, lib.load
    (lib.writeFile files tmpPkgFile (hrmChartTgzBytes metadata) tmpPkgFile) = .ok chart

/-- The comparison of the charts only takes the loading to succeed. -/
theorem Library.compareCharts_eq_true_iff (lib : Library Chart) (c : Comparison Chart)
    (package : Option Bytes) :
    lib.compareCharts c package = true ↔
      (∃ chart, lib.load package = .ok chart) ∧ c.configsMatch = true := by
  rw [compareCharts]
  cases lib.load package with
  | error err => simp
  | ok chart => simp

theorem Comparison.configsMatch_iff {release : Release Chart} {metadata : Node} :
    (Comparison.of release metadata).configsMatch = true ↔ SameConfig release metadata := by
  unfold configsMatch SameConfig Comparison.of
  dsimp only
  cases newFromYamlBytes (hrmConfigYamlBytes metadata) with
  | error err => simp
  | ok config => simp [Option.isNone_iff_eq_none]

variable [ReleaseDecoder Chart]

theorem compareManifests_eq_some_iff {rls hrm : String} {c : Comparison Chart} :
    compareManifests rls hrm = .ok (some c) ↔
      ∃ release metadata, Decodes rls hrm release metadata ∧ SameManifest release metadata ∧
        c = .of release metadata := by
  constructor
  · intro h
    rw [compareManifests] at h
    split_ifs at h with hempty
    · cases h
    split at h
    · cases h
    rename_i rlsObj hrls
    obtain ⟨release, hrelease, h⟩ := Go.bind_eq_ok.1 h
    split at h
    · cases h
    rename_i metadata hhrm
    split_ifs at h with hmanifest
    · cases h
    cases h
    obtain ⟨hrls_ne, hhrm_ne⟩ := not_or.1 hempty
    rw [Go.deref_eq_ok.1 hrelease] at hrls
    exact ⟨release, metadata, ⟨hrls_ne, hhrm_ne, hrls, hhrm⟩, not_not.1 hmanifest, rfl⟩
  · rintro ⟨release, metadata, hd, hmanifest, rfl⟩
    rw [compareManifests, if_neg (not_or.2 ⟨hd.rls_ne, hd.hrm_ne⟩), hd.release_eq]
    simp only [Go.deref, hd.metadata_eq, Go.ok_bind]
    exact if_neg (not_not.2 hmanifest)

/-- **When a release is accepted**: its chart has no part in it. -/
theorem matchReleaseSecret_true_iff (lib : Library Chart) (rls hrm : String) (files : Files) :
    (∃ after, matchReleaseSecret lib rls hrm files = .ok (true, after)) ↔
      ∃ (release : Release Chart) (metadata : Node), Decodes rls hrm release metadata ∧
        SameManifest release metadata ∧ Loads lib files metadata ∧ SameConfig release metadata := by
  constructor
  · rintro ⟨after, h⟩
    obtain ⟨c, hc, h⟩ := Go.bind_eq_ok.1 h
    cases c with
    | none => cases h
    | some c =>
        obtain ⟨release, metadata, hd, hmanifest, rfl⟩ := compareManifests_eq_some_iff.1 hc
        have htrue := congrArg Prod.fst (Except.ok.inj h)
        obtain ⟨hloads, hconfig⟩ := (lib.compareCharts_eq_true_iff _ _).1 htrue
        exact ⟨release, metadata, hd, hmanifest, hloads, Comparison.configsMatch_iff.1 hconfig⟩
  · rintro ⟨release, metadata, hd, hmanifest, hloads, hconfig⟩
    have hc := compareManifests_eq_some_iff.2 ⟨release, metadata, hd, hmanifest, rfl⟩
    have htrue := (lib.compareCharts_eq_true_iff _ _).2
      ⟨hloads, Comparison.configsMatch_iff.2 hconfig⟩
    refine ⟨lib.writeFile files tmpPkgFile (hrmChartTgzBytes metadata), ?_⟩
    rw [matchReleaseSecret, hc, Go.ok_bind]
    exact congrArg (fun matched => Except.ok (matched, _)) htrue

/-- **When an accepted release is the one of the metadata**: if the charts have one rendering, or
something else keeps it from being accepted. -/
theorem matchReleaseSecret_sound_iff (lib : Library Chart) (rls hrm : String) (files : Files) :
    (∀ after, matchReleaseSecret lib rls hrm files = .ok (true, after) →
        ∃ (release : Release Chart) (metadata : Node), Decodes rls hrm release metadata ∧
          SameManifest release metadata ∧ SameChart lib release metadata ∧
          SameConfig release metadata) ↔
      ∀ (release : Release Chart) (metadata : Node), Decodes rls hrm release metadata →
        SameManifest release metadata → Loads lib files metadata → SameConfig release metadata →
        SameChart lib release metadata := by
  have hiff := matchReleaseSecret_true_iff lib rls hrm files
  constructor
  · intro h release metadata hd hmanifest hloads hconfig
    obtain ⟨after, hafter⟩ := hiff.2 ⟨release, metadata, hd, hmanifest, hloads, hconfig⟩
    obtain ⟨release', metadata', hd', _, hchart, _⟩ := h after hafter
    -- the texts are decoded in one way
    cases hd.release_eq.symm.trans hd'.release_eq
    cases hd.metadata_eq.symm.trans hd'.metadata_eq
    exact hchart
  · intro h after hafter
    obtain ⟨release, metadata, hd, hmanifest, hloads, hconfig⟩ := hiff.1 ⟨after, hafter⟩
    exact ⟨release, metadata, hd, hmanifest, h release metadata hd hmanifest hloads hconfig,
      hconfig⟩

end Match

/-- Libraries that read the text `hrm` as a metadata with the manifest `m`, the chart `c` and the
values `v`, and nothing off `v`. -/
@[reducible] def releasing : Outside :=
  { Outside.silent with
    base64Decode := some
    base64Decode_empty := Outside.silent.base64Decode_empty
    jsonUnmarshal := fun raw =>
      if raw = "hrm" then .ok [("spec", .obj [("manifest", .scalar (.str "m")),
        ("chart", .scalar (.str "c")), ("config", .scalar (.str "v"))])]
      else .error "invalid"
    yamlUnmarshal := fun raw => if raw = "v" then .ok [] else .error "invalid" }

/-- A decoder that reads a release with a chart off every text. -/
@[reducible] def ReleaseDecoder.always (chart : String) : ReleaseDecoder String where
  unmarshalRelease _ := .ok (some ⟨"m", some chart, []⟩)

/-- A helm library whose charts are the contents of their packages.  A package is signed if its
provenance is its contents, by the contents of the key ring. -/
def Library.plain : Library String where
  load package := .ok (package.getD "")
  marshalChart chart := chart.getD ""
  keyringError ring := if ring.isSome then none else some "no such file"
  signedBy ring prov package :=
    if prov = package then some (some { email := ring.getD "", name := "", comment := "" })
    else none
  writeError _ := none

/-- A release with another chart than its metadata is accepted. -/
theorem matchReleaseSecret_other_chart :
    letI := releasing
    letI := ReleaseDecoder.always "other"
    let release : Release String := ⟨"m", some "other", []⟩
    ∃ metadata, Decodes "rls" "hrm" release metadata ∧ ¬ SameChart .plain release metadata ∧
      ∃ after, matchReleaseSecret .plain "rls" "hrm" (fun _ => none) = .ok (true, after) := by
  intro release
  let _ := releasing
  let _ := ReleaseDecoder.always "other"
  refine ⟨_, ⟨by decide, by decide, rfl, rfl⟩, ?_, ?_⟩
  · rintro ⟨chart, hload, hsame⟩
    cases hload
    revert hsame
    decide +kernel
  · obtain ⟨⟨matched, after⟩, hmatch, hmatched⟩ : ∃ r,
        matchReleaseSecret Library.plain "rls" "hrm" (fun _ => none) = .ok r ∧ r.1 = true :=
      Go.exists_of_toOption_map (by decide +kernel)
    exact ⟨after, hmatched ▸ hmatch⟩

/-! ## The chart of a metadata -/

/-- `VerifyPackage`; an entity without an identity has nil dereferenced. -/
def verifyPackage (lib : Library Chart) (filePath provPath keyringPath : String) (files : Files) :
    Go (Except String (Option PgpSigner)) :=
  match lib.keyringError (files keyringPath) with
  | some err => return .error err
  | none =>
      match lib.signedBy (files keyringPath) (files provPath) (files filePath) with
      | none => return .ok none
      | some signIdt => do
          let signer ← Go.deref signIdt
          return .ok (some signer)

/-- The loop of `VerifyChartAndProv` over the key rings. -/
def verifyKeyrings (lib : Library Chart) (files : Files) : List String → Go HelmOutcome
  | [] => return { ok := false, reasonFail := "Failed to verify helm chart and its provenance." }
  | keyringPath :: rest => do
      match ← verifyPackage lib chartPath provPath keyringPath files with
      | .error _ => verifyKeyrings lib files rest
      | .ok none => verifyKeyrings lib files rest
      | .ok (some signer) => return { ok := true, signer := some signer }

/-- The outcome of a file that cannot be written. -/
def writeFailure (err : String) : HelmOutcome :=
  let msg := "Error in verifying chart file; " ++ err
  { ok := false, reasonFail := msg, err := some msg }

/-- `VerifyChartAndProv` from the writing of the provenance on. -/
def verifyProv (lib : Library Chart) (prov : Bytes) (keyPathList : List String) (files : Files) :
    Go HelmOutcome × Files :=
  match lib.writeError provPath with
  | some err => (return writeFailure err, files)
  | none =>
      let files := lib.writeFile files provPath prov
      (verifyKeyrings lib files keyPathList, files)

/-- `VerifyChartAndProv`, and the files as it leaves them. -/
def verifyChartAndProv (lib : Library Chart) (chart prov : Bytes) (keyPathList : List String)
    (files : Files) : Go HelmOutcome × Files :=
  match lib.writeError chartPath with
  | some err => (return writeFailure err, files)
  | none => verifyProv lib prov keyPathList (lib.writeFile files chartPath chart)

end Helm
end IntegrityShield
