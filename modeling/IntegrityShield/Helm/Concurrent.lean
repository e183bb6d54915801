/-
# Concurrent verifications of helm releases

The requests of an admission webhook are served concurrently, and `MatchReleaseSecret` and
`VerifyChartAndProv` of `shield/pkg/plugins/helm/helm.go` pass charts and provenances to the helm
library through files whose names are the same in every call.  Here a call is a process that takes
one step for each file it reads or writes (`advance`), and an interleaving is a run of several
processes over the same files.

Alone, a process returns what the call returns (`returns_alone`).  Among others it returns that, for
every helm library and all contents of the files, exactly if the calls have nothing to confuse
(`Compatible`): those that write the package file or the chart files write the same contents, unless
what they read back has no influence on their result, and none has the package file for a key ring.
-/

import IntegrityShield.Base.Interleaving
import IntegrityShield.Helm.Release

namespace IntegrityShield
namespace Helm

open Common Mapnode Shield Interleaving

/-! ## Calls as processes -/

/-- A call of one of the two functions. -/
inductive Call where
  | matching (rls hrm : String)
  | verifying (chart prov : Bytes) (keyPathList : List String)

/-- What a call returns. -/
inductive Outcome where
  | matched (result : Go Bool)
  | verified (result : Go HelmOutcome)

/-- Where a call is: what it is about to do next. -/
inductive Process (Chart : Type) where
  | comparing (rls hrm : String)
  | loading (c : Comparison Chart)
  | writingChart (chart prov : Bytes) (keyPathList : List String)
  | writingProv (prov : Bytes) (keyPathList : List String)
  | openingKeyring (keyPathList : List String)
  | readingProv (ring : Option Bytes) (rest : List String)
  | readingChart (ring prov : Option Bytes) (rest : List String)
  | returned (outcome : Outcome)

variable {Chart : Type}

/-- A call that has done nothing yet. -/
def Call.start : Call → Process Chart
  | .matching rls hrm => .comparing rls hrm
  | .verifying chart prov keyPathList => .writingChart chart prov keyPathList

/-- The loop over the key rings after the check of one of them. -/
def checkSigner (lib : Library Chart) (files : Files) (rest : List String) :
    Option (Option PgpSigner) → Go HelmOutcome
  | none => verifyKeyrings lib files rest
  | some none => .error .nilDeref
  | some (some signer) => .ok { ok := true, signer := some signer }

theorem verifyKeyrings_cons (lib : Library Chart) (files : Files) (keyringPath : String)
    (rest : List String) :
    verifyKeyrings lib files (keyringPath :: rest) =
      match lib.keyringError (files keyringPath) with
      | some _ => verifyKeyrings lib files rest
      | none => checkSigner lib files rest
          (lib.signedBy (files keyringPath) (files provPath) (files chartPath)) := by
  rw [verifyKeyrings, verifyPackage]
  cases lib.keyringError (files keyringPath) with
  | some err => rfl
  | none =>
      cases lib.signedBy (files keyringPath) (files provPath) (files chartPath) with
      | none => rfl
      | some signIdt => cases signIdt <;> rfl

/-- The number of steps to the end. -/
def rank : Process Chart → ℕ
  | .comparing _ _ => 2
  | .loading _ => 1
  | .writingChart _ _ keyPathList => 3 * keyPathList.length + 3
  | .writingProv _ keyPathList => 3 * keyPathList.length + 2
  | .openingKeyring keyPathList => 3 * keyPathList.length + 1
  | .readingProv _ rest => 3 * rest.length + 3
  | .readingChart _ _ rest => 3 * rest.length + 2
  | .returned _ => 0

theorem eq_returned_of_rank {p : Process Chart} (h : rank p = 0) :
    ∃ outcome, p = .returned outcome := by
  cases p with
  | returned outcome => exact ⟨outcome, rfl⟩
  | _ => simp [rank] at h

section Steps

variable [Outside] [ReleaseDecoder Chart] (lib : Library Chart)

/-- One step: a file is read or written, and what follows up to the next one is computed.  Of the
provenance check the library reads the provenance first; that the files exist, which it also asks,
does not change once they are written. -/
def advance : Process Chart → Files → Process Chart × Files
  | .comparing rls hrm, files =>
      match compareManifests rls hrm with
      | .error fault => (.returned (.matched (.error fault)), files)
      | .ok none => (.returned (.matched (.ok false)), files)
      | .ok (some c) => (.loading c, lib.writeFile files tmpPkgFile c.hrmChart)
  | .loading c, files =>
      (.returned (.matched (.ok (lib.compareCharts c (files tmpPkgFile)))), files)
  | .writingChart chart prov keyPathList, files =>
      match lib.writeError chartPath with
      | some err => (.returned (.verified (.ok (writeFailure err))), files)
      | none => (.writingProv prov keyPathList, lib.writeFile files chartPath chart)
  | .writingProv prov keyPathList, files =>
      match lib.writeError provPath with
      | some err => (.returned (.verified (.ok (writeFailure err))), files)
      | none => (.openingKeyring keyPathList, lib.writeFile files provPath prov)
  | .openingKeyring [], files => (.returned (.verified (verifyKeyrings lib files [])), files)
  | .openingKeyring (keyringPath :: rest), files =>
      match lib.keyringError (files keyringPath) with
      | some _ => (.openingKeyring rest, files)
      | none => (.readingProv (files keyringPath) rest, files)
  | .readingProv ring rest, files => (.readingChart ring (files provPath) rest, files)
  | .readingChart ring prov rest, files =>
      match lib.signedBy ring prov (files chartPath) with
      | none => (.openingKeyring rest, files)
      | some signIdt => (.returned (.verified (checkSigner lib files rest (some signIdt))), files)
  | .returned outcome, files => (.returned outcome, files)

/-- What a process returns if it is left alone with the files. -/
def completes : Process Chart → Files → Outcome
  | .comparing rls hrm, files => .matched ((matchReleaseSecret lib rls hrm files).map Prod.fst)
  | .loading c, files => .matched (.ok (lib.compareCharts c (files tmpPkgFile)))
  | .writingChart chart prov keyPathList, files =>
      .verified (verifyChartAndProv lib chart prov keyPathList files).1
  | .writingProv prov keyPathList, files => .verified (verifyProv lib prov keyPathList files).1
  | .openingKeyring keyPathList, files => .verified (verifyKeyrings lib files keyPathList)
  | .readingProv ring rest, files => .verified
      (checkSigner lib files rest (lib.signedBy ring (files provPath) (files chartPath)))
  | .readingChart ring prov rest, files => .verified
      (checkSigner lib files rest (lib.signedBy ring prov (files chartPath)))
  | .returned outcome, _ => outcome

/-- **A step does not change what is returned.** -/
theorem completes_advance (p : Process Chart) (files : Files) :
    completes lib (advance lib p files).1 (advance lib p files).2 = completes lib p files := by
  cases p with
  | comparing rls hrm =>
      simp only [advance, completes, matchReleaseSecret]
      cases (compareManifests rls hrm : Go (Option (Comparison Chart))) with
      | error fault => rfl
      | ok c => cases c <;> rfl
  | loading c => rfl
  | writingChart chart prov keyPathList =>
      simp only [advance, completes, verifyChartAndProv]
      cases lib.writeError chartPath <;> rfl
  | writingProv prov keyPathList =>
      simp only [advance, completes, verifyProv]
      cases lib.writeError provPath <;> rfl
  | openingKeyring keyPathList =>
      cases keyPathList with
      | nil => rfl
      | cons keyringPath rest =>
          simp only [advance, completes, verifyKeyrings_cons]
          cases lib.keyringError (files keyringPath) <;> rfl
  | readingProv ring rest => rfl
  | readingChart ring prov rest =>
      simp only [advance, completes]
      cases lib.signedBy ring prov (files chartPath) <;> rfl
  | returned outcome => rfl

theorem rank_advance (p : Process Chart) (files : Files) :
    rank (advance lib p files).1 ≤ rank p - 1 := by
  cases p with
  | comparing rls hrm =>
      simp only [advance]
      cases (compareManifests rls hrm : Go (Option (Comparison Chart))) with
      | error fault => exact Nat.zero_le _
      | ok c =>
          cases c with
          | none => exact Nat.zero_le _
          | some c => exact Nat.le_refl _
  | loading c => exact Nat.le_refl _
  | writingChart chart prov keyPathList =>
      simp only [advance]
      cases lib.writeError chartPath with
      | some err => exact Nat.zero_le _
      | none => exact Nat.le_refl _
  | writingProv prov keyPathList =>
      simp only [advance]
      cases lib.writeError provPath with
      | some err => exact Nat.zero_le _
      | none => exact Nat.le_refl _
  | openingKeyring keyPathList =>
      cases keyPathList with
      | nil => exact Nat.le_refl _
      | cons keyringPath rest =>
          simp only [advance]
          cases lib.keyringError (files keyringPath) with
          | some err =>
              simp only [rank, List.length_cons]
              omega
          | none =>
              simp only [rank, List.length_cons]
              omega
  | readingProv ring rest => exact Nat.le_refl _
  | readingChart ring prov rest =>
      simp only [advance]
      cases lib.signedBy ring prov (files chartPath) with
      | none => exact Nat.le_refl _
      | some signIdt => exact Nat.zero_le _
  | returned outcome => exact Nat.le_refl _

/-- **Alone, a process returns what the call returns.** -/
theorem returns_alone (p : Process Chart) (files : Files) {n : ℕ} (hn : rank p ≤ n) :
    ((fun s : Process Chart × Files => advance lib s.1 s.2)^[n] (p, files)).1 =
      .returned (completes lib p files) := by
  induction n generalizing p files with
  | zero =>
      obtain ⟨outcome, rfl⟩ := eq_returned_of_rank (Nat.le_zero.1 hn)
      rfl
  | succ n ih =>
      have hrank := rank_advance lib p files
      have hle : rank (advance lib p files).1 ≤ n := by omega
      rw [Function.iterate_succ_apply, ← completes_advance]
      exact ih _ _ hle

end Steps

/-! ## Calls among others -/

theorem steps_order {ι : Type} [DecidableEq ι] (order : List ι) (i : ι) :
    steps i (order.map fun i => (.advance i () : Action ι Call Unit Empty)) = order.count i := by
  rw [steps, List.countP_map, List.count]
  exact List.countP_congr fun j _ => by simp

section Isolation

variable [Outside] [ReleaseDecoder Chart] {ι : Type} [DecidableEq ι]

/-- The calls as a program for concurrent processes. -/
def program (lib : Library Chart) : Program Call Unit Empty (Process Chart) Files where
  create := Call.start
  advance _ := advance lib
  environment e := e.elim

/-- The calls at their start, and the files. -/
def started (calls : ι → Call) (files : Files) : System ι (Process Chart) Files where
  shared := files
  processes i := some (calls i).start

/-- The calls and the files after an interleaving: the steps are those of the calls named, in that
order. -/
def runCalls (lib : Library Chart) (calls : ι → Call) (files : Files) (order : List ι) :
    System ι (Process Chart) Files :=
  run (program lib) (started calls files) (order.map fun i => .advance i ())

/-- What a call returns alone. -/
def Call.alone (lib : Library Chart) (files : Files) : Call → Outcome
  | .matching rls hrm => .matched ((matchReleaseSecret lib rls hrm files).map Prod.fst)
  | .verifying chart prov keyPathList =>
      .verified (verifyChartAndProv lib chart prov keyPathList files).1

/-- Whatever the helm library and the files are, each call that gets to its end returns what it
returns alone. -/
def Isolated (Chart : Type) [ReleaseDecoder Chart] (calls : ι → Call) : Prop :=
  ∀ (lib : Library Chart) (files : Files) (order : List ι) (i : ι),
    rank ((calls i).start : Process Chart) ≤ order.count i →
      (runCalls lib calls files order).processes i =
        some (.returned ((calls i).alone lib files))

theorem completes_start (lib : Library Chart) (files : Files) (call : Call) :
    completes lib call.start files = call.alone lib files := by
  cases call <;> rfl

/-- A call is there at all times, and not further from its end than at its start. -/
theorem exists_process (lib : Library Chart) (calls : ι → Call) (files : Files) (order : List ι)
    (i : ι) : ∃ p, (runCalls lib calls files order).processes i = some p ∧
      rank p ≤ rank ((calls i).start : Process Chart) - order.count i := by
  have hdecreases : ∀ a p c, rank ((program lib).advance a p c).1 ≤ rank p - 1 :=
    fun _ => rank_advance lib
  have hstart : (started calls files : System ι (Process Chart) Files).processes i =
    some (calls i).start := rfl
  obtain ⟨p, hp, hrank⟩ := run_rank (program lib) hdecreases hstart
    (order.map fun i => .advance i ())
  rw [steps_order] at hrank
  exact ⟨p, hp, hrank⟩

/-- A call that has all the remaining steps to itself. -/
theorem run_rest (lib : Library Chart) {sys : System ι (Process Chart) Files} {i : ι}
    {p : Process Chart} (hp : sys.processes i = some p) {n : ℕ} (hn : rank p ≤ n) :
    (run (program lib) sys (List.replicate n (.advance i ()))).processes i =
      some (.returned (completes lib p sys.shared)) := by
  have halone := run_alone (program lib) hp (List.replicate n ())
  have hiterate := List.foldl_const (fun s : Process Chart × Files => advance lib s.1 s.2)
    (p, sys.shared) (List.replicate n ())
  rw [List.length_replicate] at hiterate
  rw [List.map_replicate] at halone
  refine halone.trans (congrArg some ?_)
  exact (congrArg Prod.fst hiterate).trans (returns_alone lib p sys.shared hn)

/-- **Isolation as an invariant**: at all times, each call would return alone, from the files as
they are, what it would have returned at its start. -/
theorem isolated_iff (calls : ι → Call) :
    Isolated Chart calls ↔ ∀ (lib : Library Chart) (files : Files) (order : List ι) (i : ι) p,
      (runCalls lib calls files order).processes i = some p →
        completes lib p (runCalls lib calls files order).shared = (calls i).alone lib files := by
  constructor
  · intro h lib files order i p hp
    -- let the call alone have all its steps
    let n := rank ((calls i).start : Process Chart)
    have hend := h lib files (order ++ List.replicate n i) i (by
      rw [List.count_append, List.count_replicate_self]
      exact Nat.le_add_left _ _)
    obtain ⟨p', hp', hrank⟩ := exists_process lib calls files order i
    cases hp.symm.trans hp'
    have hrest := run_rest lib hp (n := n) (by omega)
    rw [runCalls, List.map_append, List.map_replicate, run_append] at hend
    exact Process.returned.inj (Option.some.inj (hrest.symm.trans hend))
  · intro h lib files order i hcount
    obtain ⟨p, hp, hrank⟩ := exists_process lib calls files order i
    obtain ⟨outcome, rfl⟩ := eq_returned_of_rank (p := p) (by omega)
    rw [hp, ← h lib files order i _ hp]
    rfl

/-! ## Compatible calls -/

/-- A call that gets to the comparison of the charts. -/
def Compares (call : Call) (c : Comparison Chart) : Prop :=
  ∃ rls hrm, call = .matching rls hrm ∧ compareManifests rls hrm = .ok (some c)

/-- The calls have nothing to confuse. -/
structure Compatible (Chart : Type) [ReleaseDecoder Chart] (calls : ι → Call) : Prop where
  /-- Those that compare charts have one package, but for those that fail on the values. -/
  packages : ∀ {i j} {c c' : Comparison Chart}, i ≠ j → Compares (calls i) c →
    Compares (calls j) c' → c.configsMatch = true → c'.hrmChart = c.hrmChart
  /-- Those that verify charts have one chart and one provenance, but for those without keys. -/
  charts : ∀ {i j chart prov keyPathList chart' prov' keyPathList'}, i ≠ j →
    calls i = .verifying chart prov keyPathList →
    calls j = .verifying chart' prov' keyPathList' → keyPathList ≠ [] →
    chart' = chart ∧ prov' = prov
  /-- No key ring is the package file, if that is written. -/
  keyrings : ∀ {i j chart prov keyPathList} {c : Comparison Chart},
    calls i = .verifying chart prov keyPathList → Compares (calls j) c →
    tmpPkgFile ∉ keyPathList

end Isolation

/-! ## What a process depends on -/

/-- A call that is checking its chart with some key rings left: its files are as it wrote them. -/
def Checking (call : Call) (files : Files) (rest : List String) : Prop :=
  ∃ chart prov keyPathList, call = .verifying chart prov keyPathList ∧ keyPathList ≠ [] ∧
    rest ⊆ keyPathList ∧ files chartPath = some chart ∧ files provPath = some prov

theorem Checking.mono {call : Call} {files : Files} {rest rest' : List String}
    (h : Checking call files rest) (hrest : rest' ⊆ rest) : Checking call files rest' := by
  obtain ⟨chart, prov, keyPathList, hcall, hne, hsub, hfiles⟩ := h
  exact ⟨chart, prov, keyPathList, hcall, hne, fun path hpath => hsub (hrest hpath), hfiles⟩

theorem Checking.update {call : Call} {files : Files} {rest : List String}
    (h : Checking call files rest) {path : String} (hchart : path ≠ chartPath)
    (hprov : path ≠ provPath) (content : Bytes) :
    Checking call (Function.update files path (some content)) rest := by
  obtain ⟨chart, prov, keyPathList, hcall, hne, hsub, hfiles⟩ := h
  refine ⟨chart, prov, keyPathList, hcall, hne, hsub, ?_⟩
  rwa [Function.update_of_ne hchart.symm, Function.update_of_ne hprov.symm]

section Interference

variable [Outside]

/-- The process reads a file before it writes it, and what it reads matters. -/
def Reads : Process Chart → String → Prop
  | .comparing _ _, _ => False
  | .loading c, path => c.configsMatch = true ∧ path = tmpPkgFile
  | .writingChart _ _ keyPathList, path =>
      path ∈ keyPathList ∧ path ≠ chartPath ∧ path ≠ provPath
  | .writingProv _ keyPathList, path =>
      keyPathList ≠ [] ∧ (path = chartPath ∨ path ∈ keyPathList) ∧ path ≠ provPath
  | .openingKeyring keyPathList, path =>
      keyPathList ≠ [] ∧ (path = chartPath ∨ path = provPath ∨ path ∈ keyPathList)
  | .readingProv _ rest, path => path = chartPath ∨ path = provPath ∨ path ∈ rest
  | .readingChart _ _ rest, path => path = chartPath ∨ path = provPath ∨ path ∈ rest
  | .returned _, _ => False

omit [Outside] in
theorem writeFile_congr {lib : Library Chart} {files files' : Files} {path path' : String}
    {content : Bytes}
    (h : path ≠ path' ∨ lib.writeError path' ≠ none → files path = files' path) :
    lib.writeFile files path' content path = lib.writeFile files' path' content path := by
  cases herror : lib.writeError path' with
  | some err =>
      rw [Library.writeFile_of_error herror, Library.writeFile_of_error herror]
      exact h (Or.inr (by rw [herror]; exact Option.some_ne_none err))
  | none =>
      rw [Library.writeFile_of_writable herror, Library.writeFile_of_writable herror]
      by_cases heq : path = path'
      · rw [heq, Function.update_self, Function.update_self]
      · rw [Function.update_of_ne heq, Function.update_of_ne heq, h (Or.inl heq)]

omit [Outside] in
theorem verifyKeyrings_congr {lib : Library Chart} {files files' : Files}
    {keyPathList : List String}
    (hfiles : keyPathList ≠ [] → files chartPath = files' chartPath ∧
      files provPath = files' provPath)
    (hrings : ∀ path ∈ keyPathList, files path = files' path) :
    verifyKeyrings lib files keyPathList = verifyKeyrings lib files' keyPathList := by
  induction keyPathList with
  | nil => rfl
  | cons keyringPath rest ih =>
      obtain ⟨hchart, hprov⟩ := hfiles (List.cons_ne_nil _ _)
      obtain ⟨hring, hrings⟩ := List.forall_mem_cons.1 hrings
      have hrest := ih (fun _ => ⟨hchart, hprov⟩) hrings
      rw [verifyKeyrings_cons, verifyKeyrings_cons, hring, hchart, hprov, hrest]
      split
      · rfl
      · unfold checkSigner
        rw [hrest]

omit [Outside] in
/-- The same of a loop that has begun. -/
theorem checking_congr (lib : Library Chart) {files files' : Files} {rest : List String}
    (h : ∀ path, path = chartPath ∨ path = provPath ∨ path ∈ rest → files path = files' path) :
    files chartPath = files' chartPath ∧ files provPath = files' provPath ∧
      verifyKeyrings lib files rest = verifyKeyrings lib files' rest := by
  have hchart := h chartPath (Or.inl rfl)
  have hprov := h provPath (Or.inr (Or.inl rfl))
  exact ⟨hchart, hprov, verifyKeyrings_congr (fun _ => ⟨hchart, hprov⟩)
    fun path hpath => h path (Or.inr (Or.inr hpath))⟩

variable [ReleaseDecoder Chart]

/-- **What a process returns depends on the files it reads**, and on those that cannot be
written. -/
theorem completes_congr {lib : Library Chart} {p : Process Chart} {files files' : Files}
    (hreads : ∀ path, Reads p path → files path = files' path)
    (hunwritable : ∀ path, lib.writeError path ≠ none → files path = files' path) :
    completes lib p files = completes lib p files' := by
  cases p with
  | comparing rls hrm =>
      simp only [completes, matchReleaseSecret]
      cases (compareManifests rls hrm : Go (Option (Comparison Chart))) with
      | error fault => rfl
      | ok c =>
          cases c with
          | none => rfl
          | some c =>
              have hpackage : lib.writeFile files tmpPkgFile c.hrmChart tmpPkgFile =
                  lib.writeFile files' tmpPkgFile c.hrmChart tmpPkgFile :=
                writeFile_congr fun h => hunwritable _ (h.resolve_left fun hne => hne rfl)
              exact congrArg (fun package => Outcome.matched (.ok (lib.compareCharts c package)))
                hpackage
  | loading c =>
      simp only [completes]
      by_cases hconfig : c.configsMatch = true
      · rw [hreads _ ⟨hconfig, rfl⟩]
      · have hfalse : ∀ package, lib.compareCharts c package = false := fun package =>
          Bool.eq_false_iff.2 fun h =>
            hconfig ((lib.compareCharts_eq_true_iff c package).1 h).2
        rw [hfalse, hfalse]
  | writingChart chart prov keyPathList =>
      simp only [completes, verifyChartAndProv, verifyProv]
      cases hchart : lib.writeError chartPath with
      | some err => rfl
      | none =>
          cases hprov : lib.writeError provPath with
          | some err => rfl
          | none =>
              -- both writes succeed, so the two files do not matter as they are now
              have hsame : ∀ path, (path ≠ chartPath → path ≠ provPath →
                    files path = files' path) →
                  lib.writeFile (lib.writeFile files chartPath chart) provPath prov path =
                    lib.writeFile (lib.writeFile files' chartPath chart) provPath prov path :=
                fun path hpath => writeFile_congr fun h => writeFile_congr fun h' =>
                  hpath (h'.resolve_right (not_not.2 hchart)) (h.resolve_right (not_not.2 hprov))
              refine congrArg Outcome.verified (verifyKeyrings_congr (fun _ => ⟨?_, ?_⟩) ?_)
              · exact hsame _ fun hne => absurd rfl hne
              · exact hsame _ fun _ hne => absurd rfl hne
              · exact fun path hpath => hsame _ fun h h' => hreads path ⟨hpath, h, h'⟩
  | writingProv prov keyPathList =>
      simp only [completes, verifyProv]
      cases hprov : lib.writeError provPath with
      | some err => rfl
      | none =>
          have hsame : ∀ path, (path ≠ provPath → files path = files' path) →
              lib.writeFile files provPath prov path = lib.writeFile files' provPath prov path :=
            fun path hpath => writeFile_congr fun h => hpath (h.resolve_right (not_not.2 hprov))
          refine congrArg Outcome.verified (verifyKeyrings_congr (fun hne => ⟨?_, ?_⟩) ?_)
          · exact hsame _ fun h => hreads _ ⟨hne, Or.inl rfl, h⟩
          · exact hsame _ fun h => absurd rfl h
          · exact fun path hpath => hsame _ fun h =>
              hreads path ⟨List.ne_nil_of_mem hpath, Or.inr hpath, h⟩
  | openingKeyring keyPathList =>
      refine congrArg Outcome.verified (verifyKeyrings_congr (fun hne => ⟨?_, ?_⟩) ?_)
      · exact hreads _ ⟨hne, Or.inl rfl⟩
      · exact hreads _ ⟨hne, Or.inr (Or.inl rfl)⟩
      · exact fun path hpath => hreads path ⟨List.ne_nil_of_mem hpath, Or.inr (Or.inr hpath)⟩
  | readingProv ring rest =>
      obtain ⟨hchart, hprov, hrest⟩ := checking_congr lib hreads
      simp only [completes, hchart, hprov, checkSigner, hrest]
  | readingChart ring prov rest =>
      obtain ⟨hchart, _, hrest⟩ := checking_congr lib hreads
      simp only [completes, hchart, checkSigner, hrest]
  | returned outcome => rfl

/-- How far a call has got, and what it has written of what it will read. -/
def Reached (lib : Library Chart) (call : Call) : Process Chart → Files → Prop
  | .comparing rls hrm, _ => call = .matching rls hrm
  | .loading c, files => Compares call c ∧ (lib.writeError tmpPkgFile = none →
      c.configsMatch = true → files tmpPkgFile = some c.hrmChart)
  | .writingChart chart prov keyPathList, _ => call = .verifying chart prov keyPathList
  | .writingProv prov keyPathList, files => ∃ chart, call = .verifying chart prov keyPathList ∧
      (keyPathList ≠ [] → files chartPath = some chart)
  | .openingKeyring rest, files => (∃ chart prov keyPathList,
      call = .verifying chart prov keyPathList) ∧ (rest ≠ [] → Checking call files rest)
  | .readingProv _ rest, files => Checking call files rest
  | .readingChart _ _ rest, files => Checking call files rest
  | .returned _, _ => True

/-- What a call may write. -/
def Writes (Chart : Type) [ReleaseDecoder Chart] (call : Call) (path : String) (content : Bytes) :
    Prop :=
  (∃ c : Comparison Chart, Compares call c ∧ path = tmpPkgFile ∧ content = c.hrmChart) ∨
  ∃ chart prov keyPathList, call = .verifying chart prov keyPathList ∧
    (path = chartPath ∧ content = chart ∨ path = provPath ∧ content = prov)

theorem reached_start (lib : Library Chart) (call : Call) (files : Files) :
    Reached lib call call.start files := by
  cases call <;> rfl

/-- The steps of a call itself. -/
theorem reached_advance {lib : Library Chart} {call : Call} {p : Process Chart} {files : Files}
    (h : Reached lib call p files) :
    Reached lib call (advance lib p files).1 (advance lib p files).2 := by
  have hself : ∀ {path content}, lib.writeError path = none →
      lib.writeFile files path content path = some content := fun hwritable => by
    rw [Library.writeFile_of_writable hwritable, Function.update_self]
  cases p with
  | comparing rls hrm =>
      simp only [advance]
      cases hc : (compareManifests rls hrm : Go (Option (Comparison Chart))) with
      | error fault => trivial
      | ok c =>
          cases c with
          | none => trivial
          | some c => exact ⟨⟨rls, hrm, h, hc⟩, fun hwritable _ => hself hwritable⟩
  | loading c => trivial
  | writingChart chart prov keyPathList =>
      simp only [advance]
      cases hwritable : lib.writeError chartPath with
      | some err => trivial
      | none => exact ⟨chart, h, fun _ => hself hwritable⟩
  | writingProv prov keyPathList =>
      obtain ⟨chart, hcall, hchart⟩ := h
      simp only [advance]
      cases hwritable : lib.writeError provPath with
      | some err => trivial
      | none =>
          refine ⟨⟨chart, prov, keyPathList, hcall⟩, fun hne =>
            ⟨chart, prov, keyPathList, hcall, hne, fun _ => id, ?_, hself hwritable⟩⟩
          change lib.writeFile files provPath prov chartPath = some chart
          rw [Library.writeFile_of_writable hwritable, Function.update_of_ne (by decide)]
          exact hchart hne
  | openingKeyring rest =>
      cases rest with
      | nil => trivial
      | cons keyringPath rest =>
          have hrest := (h.2 (List.cons_ne_nil _ _)).mono (List.subset_cons_self keyringPath rest)
          simp only [advance]
          cases lib.keyringError (files keyringPath) with
          | some err => exact ⟨h.1, fun _ => hrest⟩
          | none => exact hrest
  | readingProv ring rest => exact h
  | readingChart ring prov rest =>
      simp only [advance]
      cases lib.signedBy ring prov (files chartPath) with
      | none =>
          obtain ⟨chart, prov', keyPathList, hcall, _⟩ := id h
          exact ⟨⟨chart, prov', keyPathList, hcall⟩, fun _ => h⟩
      | some signIdt => trivial
  | returned outcome => trivial

/-- A step writes one file at most. -/
theorem advance_files {lib : Library Chart} {call : Call} {p : Process Chart} {files : Files}
    (h : Reached lib call p files) :
    (advance lib p files).2 = files ∨ ∃ path content, lib.writeError path = none ∧
      Writes Chart call path content ∧
      (advance lib p files).2 = Function.update files path (some content) := by
  cases p with
  | comparing rls hrm =>
      simp only [advance]
      cases hc : (compareManifests rls hrm : Go (Option (Comparison Chart))) with
      | error fault => exact Or.inl rfl
      | ok c =>
          cases c with
          | none => exact Or.inl rfl
          | some c =>
              cases hwritable : lib.writeError tmpPkgFile with
              | some err => exact Or.inl (Library.writeFile_of_error hwritable ..)
              | none =>
                  exact Or.inr ⟨_, _, hwritable, Or.inl ⟨c, ⟨rls, hrm, h, hc⟩, rfl, rfl⟩,
                    Library.writeFile_of_writable hwritable ..⟩
  | writingChart chart prov keyPathList =>
      simp only [advance]
      cases hwritable : lib.writeError chartPath with
      | some err => exact Or.inl rfl
      | none =>
          exact Or.inr ⟨_, _, hwritable,
            Or.inr ⟨chart, prov, keyPathList, h, Or.inl ⟨rfl, rfl⟩⟩,
            Library.writeFile_of_writable hwritable ..⟩
  | writingProv prov keyPathList =>
      obtain ⟨chart, hcall, _⟩ := h
      simp only [advance]
      cases hwritable : lib.writeError provPath with
      | some err => exact Or.inl rfl
      | none =>
          exact Or.inr ⟨_, _, hwritable,
            Or.inr ⟨chart, prov, keyPathList, hcall, Or.inr ⟨rfl, rfl⟩⟩,
            Library.writeFile_of_writable hwritable ..⟩
  | openingKeyring rest =>
      left
      cases rest with
      | nil => rfl
      | cons keyringPath rest =>
          simp only [advance]
          cases lib.keyringError (files keyringPath) <;> rfl
  | readingChart ring prov rest =>
      left
      simp only [advance]
      cases lib.signedBy ring prov (files chartPath) <;> rfl
  | loading c => exact Or.inl rfl
  | readingProv ring rest => exact Or.inl rfl
  | returned outcome => exact Or.inl rfl

/-- What a process does not read may change. -/
theorem reached_update {lib : Library Chart} {call : Call} {p : Process Chart} {files : Files}
    (h : Reached lib call p files) {path : String} (hpath : ¬ Reads p path) (content : Bytes) :
    Reached lib call p (Function.update files path (some content)) := by
  cases p with
  | comparing rls hrm => exact h
  | loading c =>
      refine ⟨h.1, fun hwritable hconfig => ?_⟩
      rw [Function.update_of_ne fun heq => hpath ⟨hconfig, heq.symm⟩]
      exact h.2 hwritable hconfig
  | writingChart chart prov keyPathList => exact h
  | writingProv prov keyPathList =>
      obtain ⟨chart, hcall, hchart⟩ := h
      refine ⟨chart, hcall, fun hne => ?_⟩
      rw [Function.update_of_ne fun heq => hpath ⟨hne, Or.inl heq.symm, heq ▸ by decide⟩]
      exact hchart hne
  | openingKeyring rest =>
      exact ⟨h.1, fun hne => (h.2 hne).update (fun heq => hpath ⟨hne, Or.inl heq⟩)
        (fun heq => hpath ⟨hne, Or.inr (Or.inl heq)⟩) content⟩
  | readingProv ring rest =>
      exact Checking.update h (fun heq => hpath (Or.inl heq))
        (fun heq => hpath (Or.inr (Or.inl heq))) content
  | readingChart ring prov rest =>
      exact Checking.update h (fun heq => hpath (Or.inl heq))
        (fun heq => hpath (Or.inr (Or.inl heq))) content
  | returned outcome => trivial

section Other

variable {ι : Type} {calls : ι → Call} (hcalls : Compatible Chart calls) {i j : ι}
  (hij : i ≠ j) {path : String} {content : Bytes} (hwrites : Writes Chart (calls j) path content)

include hcalls hij hwrites

/-- What another call writes to a file that is being checked with is there already. -/
theorem Checking.written {files : Files} {rest : List String}
    (h : Checking (calls i) files rest)
    (hpath : path = chartPath ∨ path = provPath ∨ path ∈ rest) : files path = some content := by
  obtain ⟨chart, prov, keyPathList, hcall, hne, hsub, hchart, hprov⟩ := h
  rcases hwrites with ⟨c, hc, rfl, _⟩ | ⟨chart', prov', keyPathList', hcall', hwritten⟩
  · rcases hpath with heq | heq | hmem
    · exact absurd heq (by decide)
    · exact absurd heq (by decide)
    · exact absurd (hsub hmem) (hcalls.keyrings hcall hc)
  · obtain ⟨rfl, rfl⟩ := hcalls.charts hij hcall hcall' hne
    rcases hwritten with ⟨rfl, rfl⟩ | ⟨rfl, rfl⟩
    · exact hchart
    · exact hprov

/-- **Another call writes what is there already**, in every file that is yet to be read. -/
theorem written_of_reads {lib : Library Chart} {p : Process Chart} {files : Files}
    (h : Reached lib (calls i) p files) (hwritable : lib.writeError path = none)
    (hreads : Reads p path) : files path = some content := by
  cases p with
  | comparing rls hrm => exact hreads.elim
  | loading c =>
      obtain ⟨hconfig, rfl⟩ := hreads
      rcases hwrites with ⟨c', hc', _, rfl⟩ | ⟨_, _, _, _, ⟨heq, _⟩ | ⟨heq, _⟩⟩
      · rw [hcalls.packages hij h.1 hc' hconfig]
        exact h.2 hwritable hconfig
      · exact absurd heq (by decide)
      · exact absurd heq (by decide)
  | writingChart chart prov keyPathList =>
      obtain ⟨hmem, hchart, hprov⟩ := hreads
      rcases hwrites with ⟨c, hc, rfl, _⟩ | ⟨_, _, _, _, ⟨heq, _⟩ | ⟨heq, _⟩⟩
      · exact absurd hmem (hcalls.keyrings h hc)
      · exact absurd heq hchart
      · exact absurd heq hprov
  | writingProv prov keyPathList =>
      obtain ⟨chart, hcall, hchart⟩ := h
      obtain ⟨hne, hpath, hprov⟩ := hreads
      rcases hwrites with ⟨c, hc, rfl, _⟩ | ⟨_, _, _, hcall', ⟨rfl, rfl⟩ | ⟨heq, _⟩⟩
      · exact absurd (hpath.resolve_left (by decide)) (hcalls.keyrings hcall hc)
      · rw [(hcalls.charts hij hcall hcall' hne).1]
        exact hchart hne
      · exact absurd heq hprov
  | openingKeyring rest => exact (h.2 hreads.1).written hcalls hij hwrites hreads.2
  | readingProv ring rest => exact Checking.written hcalls hij hwrites h hreads
  | readingChart ring prov rest => exact Checking.written hcalls hij hwrites h hreads
  | returned outcome => exact hreads.elim

end Other

/-- **Compatible calls are isolated.** -/
theorem Compatible.isolated {ι : Type} [DecidableEq ι] {calls : ι → Call}
    (hcalls : Compatible Chart calls) : Isolated Chart calls := by
  refine (isolated_iff calls).2 fun lib files order => ?_
  -- each call will return what it returns alone, and finds what it wrote
  let inv := fun i p current =>
    completes lib p current = (calls i).alone lib files ∧ Reached lib (calls i) p current
  have hinv : ∀ i p, (runCalls lib calls files order).processes i = some p →
      inv i p (runCalls lib calls files order).shared := by
    have hmeets : Meets (program lib) (fun _ a => ∃ i, a = .advance i ()) (started calls files)
        (order.map fun i => .advance i ()) := by
      refine meets_of_forall_mem (fun a ha _ => ?_) _
      obtain ⟨i, _, rfl⟩ := List.mem_map.1 ha
      exact ⟨i, rfl⟩
    refine interference_free inv ?_ ?_ ?_ ?_ ?_ hmeets
    · rintro _ _ _ ⟨_, ⟨⟩⟩
    · rintro i _ p current ⟨hcompletes, hreached⟩
      exact ⟨(completes_advance lib p current).trans hcompletes, reached_advance hreached⟩
    · rintro i j _ p q current hij ⟨hcompletes, hreached⟩ ⟨_, hother⟩
      rcases advance_files hother with hsame | ⟨path, content, hwritable, hwrites, hupdate⟩
      · rw [show ((program lib).advance _ q current).2 = current from hsame]
        exact ⟨hcompletes, hreached⟩
      · rw [show ((program lib).advance _ q current).2 = _ from hupdate]
        by_cases hreads : Reads p path
        · rw [Function.update_eq_self_iff.2
            (written_of_reads hcalls hij hwrites hreached hwritable hreads).symm]
          exact ⟨hcompletes, hreached⟩
        · refine ⟨(completes_congr ?_ ?_).trans hcompletes, reached_update hreached hreads content⟩
          · intro path' h
            have hne : path' ≠ path := fun heq => hreads (heq ▸ h)
            exact Function.update_of_ne hne ..
          · intro path' h
            have hne : path' ≠ path := fun heq => h (by rw [heq, hwritable])
            exact Function.update_of_ne hne ..
    · rintro _ _ _ _ ⟨_, ⟨⟩⟩
    · rintro i p ⟨⟩
      exact ⟨completes_start lib files (calls i), reached_start lib (calls i) files⟩
  exact fun i p hp => (hinv i p hp).1

end Interference

/-! ## Isolated calls are compatible -/

section Attack

variable [Outside] [ReleaseDecoder Chart] {ι : Type} [DecidableEq ι] {calls : ι → Call}
  {lib : Library Chart} {files : Files} {order : List ι} {i : ι}

theorem runCalls_nil {call : Call} (hcall : calls i = call) :
    (runCalls lib calls files []).processes i = some call.start := by
  rw [← hcall]
  rfl

/-- One more step of a call. -/
theorem runCalls_step {p : Process Chart}
    (hp : (runCalls lib calls files order).processes i = some p) :
    (runCalls lib calls files (order ++ [i])).processes i =
        some (advance lib p (runCalls lib calls files order).shared).1 ∧
      (runCalls lib calls files (order ++ [i])).shared =
        (advance lib p (runCalls lib calls files order).shared).2 ∧
      ∀ j ≠ i, (runCalls lib calls files (order ++ [i])).processes j =
        (runCalls lib calls files order).processes j := by
  have hrun : runCalls lib calls files (order ++ [i]) =
      step (program lib) (runCalls lib calls files order) (.advance i ()) := by
    rw [runCalls, List.map_append, run_append]
    rfl
  rw [hrun]
  refine ⟨step_advance (program lib) hp (), shared_step_advance (program lib) hp (),
    fun j hj => step_of_other (program lib) ?_ _⟩
  exact fun hprocess => hj (Option.some.inj hprocess).symm

/-- A call that writes its package. -/
theorem runCalls_package {rls hrm : String} {c : Comparison Chart}
    (hp : (runCalls lib calls files order).processes i = some (.comparing rls hrm))
    (hc : compareManifests rls hrm = .ok (some c)) (hwritable : lib.writeError tmpPkgFile = none) :
    (runCalls lib calls files (order ++ [i])).processes i = some (.loading c) ∧
      (runCalls lib calls files (order ++ [i])).shared =
        Function.update (runCalls lib calls files order).shared tmpPkgFile (some c.hrmChart) ∧
      ∀ j ≠ i, (runCalls lib calls files (order ++ [i])).processes j =
        (runCalls lib calls files order).processes j := by
  have hstep := runCalls_step hp
  simp only [advance, hc, Library.writeFile_of_writable hwritable] at hstep
  exact hstep

/-- A call that writes its chart and its provenance. -/
theorem runCalls_chart {chart prov : Bytes} {keyPathList : List String}
    (hp : (runCalls lib calls files order).processes i =
      some (.writingChart chart prov keyPathList))
    (hchart : lib.writeError chartPath = none) (hprov : lib.writeError provPath = none) :
    (runCalls lib calls files (order ++ [i] ++ [i])).processes i =
        some (.openingKeyring keyPathList) ∧
      (runCalls lib calls files (order ++ [i] ++ [i])).shared =
        Function.update (Function.update (runCalls lib calls files order).shared
          chartPath (some chart)) provPath (some prov) ∧
      ∀ j ≠ i, (runCalls lib calls files (order ++ [i] ++ [i])).processes j =
        (runCalls lib calls files order).processes j := by
  have hfirst := runCalls_step hp
  simp only [advance, hchart, Library.writeFile_of_writable hchart] at hfirst
  obtain ⟨hp', hshared, hothers⟩ := hfirst
  have hsecond := runCalls_step hp'
  simp only [advance, hprov, Library.writeFile_of_writable hprov, hshared] at hsecond
  obtain ⟨hp'', hshared', hothers'⟩ := hsecond
  exact ⟨hp'', hshared', fun j hj => (hothers' j hj).trans (hothers j hj)⟩

end Attack

/-- A helm library that loads one package. -/
def Library.loadingOnly (chart : Chart) (package : Bytes) : Library Chart where
  load content := if content = some package then .ok chart else .error "not a chart"
  marshalChart _ := ""
  keyringError _ := none
  signedBy _ _ _ := none
  writeError _ := none

/-- A helm library with one signer, of the contents that a condition holds of. -/
def Library.signedIf (good : Option Bytes → Option Bytes → Option Bytes → Bool) :
    Library Chart where
  load _ := .error "not a chart"
  marshalChart _ := ""
  keyringError _ := none
  signedBy ring prov package :=
    if good ring prov package then some (some { email := "", name := "", comment := "" }) else none
  writeError _ := none

theorem verifyKeyrings_signedIf (good : Option Bytes → Option Bytes → Option Bytes → Bool)
    (files : Files) (keyPathList : List String) :
    ∃ outcome, verifyKeyrings (.signedIf good : Library Chart) files keyPathList = .ok outcome ∧
      outcome.ok =
        keyPathList.any fun path => good (files path) (files provPath) (files chartPath) := by
  induction keyPathList with
  | nil => exact ⟨_, rfl, rfl⟩
  | cons keyringPath rest ih =>
      rw [verifyKeyrings_cons, List.any_cons]
      cases hgood : good (files keyringPath) (files provPath) (files chartPath) with
      | true =>
          refine ⟨{ ok := true, signer := some ⟨"", "", ""⟩ }, ?_, rfl⟩
          simp only [Library.signedIf, hgood, if_true]
          rfl
      | false =>
          rw [Bool.false_or]
          obtain ⟨outcome, hok, hany⟩ := ih
          refine ⟨outcome, ?_, hany⟩
          simp only [Library.signedIf, hgood, Bool.false_eq_true, if_false]
          exact hok

theorem any_eq_of_verifyKeyrings {good : Option Bytes → Option Bytes → Option Bytes → Bool}
    {files files' : Files} {keyPathList : List String}
    (h : verifyKeyrings (.signedIf good : Library Chart) files keyPathList =
      verifyKeyrings (.signedIf good : Library Chart) files' keyPathList) :
    (keyPathList.any fun path => good (files path) (files provPath) (files chartPath)) =
      keyPathList.any fun path => good (files' path) (files' provPath) (files' chartPath) := by
  obtain ⟨outcome, hok, hany⟩ := verifyKeyrings_signedIf good files keyPathList
  obtain ⟨outcome', hok', hany'⟩ := verifyKeyrings_signedIf good files' keyPathList
  rw [← hany, ← hany', Except.ok.inj (hok.symm.trans (h.trans hok'))]

theorem chartPath_ne_provPath : chartPath ≠ provPath := by decide

section Necessity

variable [Outside] [ReleaseDecoder Chart] {ι : Type} [DecidableEq ι] {calls : ι → Call}
  (h : Isolated Chart calls) {i j : ι}

include h

/-- Two packages are confused between the writing and the loading of the first. -/
theorem Isolated.packages [Inhabited Chart] {c c' : Comparison Chart} (hij : i ≠ j)
    (hc : Compares (calls i) c) (hc' : Compares (calls j) c') (hconfig : c.configsMatch = true) :
    c'.hrmChart = c.hrmChart := by
  obtain ⟨rls, hrm, hcall, hcompare⟩ := hc
  obtain ⟨rls', hrm', hcall', hcompare'⟩ := hc'
  let lib : Library Chart := .loadingOnly default c.hrmChart
  let files : Files := fun _ => none
  have hfirst : (runCalls lib calls files []).processes i = some (.comparing rls hrm) :=
    runCalls_nil hcall
  obtain ⟨hp, _, hothers⟩ := runCalls_package hfirst hcompare rfl
  have hsecond : (runCalls lib calls files ([] ++ [i])).processes j =
      some (.comparing rls' hrm') :=
    (hothers j hij.symm).trans (runCalls_nil hcall')
  obtain ⟨_, hshared, hothers⟩ := runCalls_package hsecond hcompare' rfl
  have hreturns := (isolated_iff calls).1 h lib files _ i _ ((hothers i hij).trans hp)
  have halone : lib.compareCharts c (some c.hrmChart) = true :=
    (lib.compareCharts_eq_true_iff c _).2 ⟨⟨default, if_pos rfl⟩, hconfig⟩
  have hmixed : lib.compareCharts c (some c'.hrmChart) = true := by
    rw [hshared, hcall, Call.alone, matchReleaseSecret, hcompare] at hreturns
    have hresult := Except.ok.inj (Outcome.matched.inj hreturns)
    rw [Function.update_self] at hresult
    exact hresult.trans halone
  obtain ⟨⟨chart, hload⟩, _⟩ := (lib.compareCharts_eq_true_iff c _).1 hmixed
  by_contra hne
  rw [show lib.load (some c'.hrmChart) = .error "not a chart" from
    if_neg fun heq => hne (Option.some.inj heq)] at hload
  cases hload

/-- Two charts or provenances are confused between the writing and the checking of the first. -/
theorem Isolated.charts {chart prov chart' prov' : Bytes} {keyPathList keyPathList' : List String}
    (hij : i ≠ j) (hcall : calls i = .verifying chart prov keyPathList)
    (hcall' : calls j = .verifying chart' prov' keyPathList') (hne : keyPathList ≠ []) :
    chart' = chart ∧ prov' = prov := by
  let lib : Library Chart := .signedIf fun _ p c => decide (c = some chart ∧ p = some prov)
  let files : Files := fun _ => none
  have hfirst : (runCalls lib calls files []).processes i =
      some (.writingChart chart prov keyPathList) :=
    runCalls_nil hcall
  obtain ⟨hp, hshared, hothers⟩ := runCalls_chart hfirst rfl rfl
  have hsecond : (runCalls lib calls files ([] ++ [i] ++ [i])).processes j =
      some (.writingChart chart' prov' keyPathList') :=
    (hothers j hij.symm).trans (runCalls_nil hcall')
  obtain ⟨_, hshared', hothers'⟩ := runCalls_chart hsecond rfl rfl
  have hreturns := (isolated_iff calls).1 h lib files _ i _ ((hothers' i hij).trans hp)
  rw [hshared', hshared, hcall] at hreturns
  have hany := any_eq_of_verifyKeyrings (Outcome.verified.inj hreturns)
  obtain ⟨keyringPath, hmem⟩ := List.exists_mem_of_ne_nil _ hne
  have hown : Function.update (Function.update files chartPath (some chart)) provPath (some prov)
        chartPath = some chart ∧
      Function.update (Function.update files chartPath (some chart)) provPath (some prov)
        provPath = some prov := by
    rw [Function.update_of_ne chartPath_ne_provPath, Function.update_self, Function.update_self]
    exact ⟨rfl, rfl⟩
  have hmixed := hany.trans (List.any_eq_true.2 ⟨keyringPath, hmem, decide_eq_true hown⟩)
  obtain ⟨_, _, hgood⟩ := List.any_eq_true.1 hmixed
  obtain ⟨hchart, hprov⟩ := of_decide_eq_true hgood
  rw [Function.update_of_ne chartPath_ne_provPath, Function.update_self] at hchart
  rw [Function.update_self] at hprov
  exact ⟨Option.some.inj hchart, Option.some.inj hprov⟩

/-- A package file that is a key ring is another one once it is written. -/
theorem Isolated.keyrings {chart prov : Bytes} {keyPathList : List String} {c : Comparison Chart}
    (hcall : calls i = .verifying chart prov keyPathList) (hc : Compares (calls j) c) :
    tmpPkgFile ∉ keyPathList := by
  intro hmem
  obtain ⟨rls, hrm, hcall', hcompare⟩ := hc
  have hij : i ≠ j := by
    rintro rfl
    rw [hcall] at hcall'
    cases hcall'
  -- a key ring that none of the contents is
  let ring := chart ++ prov ++ c.hrmChart ++ "x"
  have hring : ∀ content ∈ [chart, prov, c.hrmChart], content ≠ ring := by
    intro content hcontent heq
    have hlength := congrArg String.length heq
    simp only [ring, String.length_append] at hlength
    have hone : "x".length = 1 := rfl
    simp only [List.mem_cons, List.not_mem_nil, or_false] at hcontent
    rcases hcontent with rfl | rfl | rfl <;> omega
  let lib : Library Chart := .signedIf fun r _ _ => decide (r = some ring)
  let files : Files := Function.update (fun _ => none) tmpPkgFile (some ring)
  have hfirst : (runCalls lib calls files []).processes i =
      some (.writingChart chart prov keyPathList) :=
    runCalls_nil hcall
  obtain ⟨hp, hshared, hothers⟩ := runCalls_chart hfirst rfl rfl
  have hsecond : (runCalls lib calls files ([] ++ [i] ++ [i])).processes j =
      some (.comparing rls hrm) :=
    (hothers j hij.symm).trans (runCalls_nil hcall')
  obtain ⟨_, hshared', hothers'⟩ := runCalls_package hsecond hcompare rfl
  have hreturns := (isolated_iff calls).1 h lib files _ i _ ((hothers' i hij).trans hp)
  rw [hshared', hshared, hcall] at hreturns
  have hany := any_eq_of_verifyKeyrings (Outcome.verified.inj hreturns)
  have hown : Function.update (Function.update files chartPath (some chart)) provPath (some prov)
      tmpPkgFile = some ring := by
    rw [Function.update_of_ne (by decide), Function.update_of_ne (by decide)]
    exact Function.update_self ..
  have hmixed := hany.trans (List.any_eq_true.2 ⟨tmpPkgFile, hmem, decide_eq_true hown⟩)
  obtain ⟨path, _, hgood⟩ := List.any_eq_true.1 hmixed
  have hpath := of_decide_eq_true hgood
  simp only [runCalls, List.map_nil, run, List.foldl_nil, started, files,
    Function.update_apply] at hpath
  split_ifs at hpath
  · exact hring c.hrmChart (by simp) (Option.some.inj hpath)
  · exact hring prov (by simp) (Option.some.inj hpath)
  · exact hring chart (by simp) (Option.some.inj hpath)

end Necessity

/-- A chart with the provenance of another one, and the other one with its own. -/
def twoCharts : Bool → Call
  | false => .verifying "forged" "signed" ["/keys/pubring.gpg"]
  | true => .verifying "signed" "signed" ["/keys/pubring.gpg"]

end Helm
end IntegrityShield
