/-
# A kustomized object and its signed base

A kustomized resource was signed under another name.  `ConcreteSignatureEvaluator.Eval` of
`shield/pkg/shield/sign.go` finds the signature under the name that the first kustomize pattern of
the request makes of its name; `makeAllowDiffPatterns` of `shield/pkg/shield/signVerifier.go` makes
of the same patterns the difference between the two names, for `matchContents` to allow.

It does not: the allowed difference goes from the name of the request to that of the document, and
the difference that is found the other way; and even a difference that is removed leaves an empty
result, which is not nil.  So the contents match exactly if the two objects show the same when they
are masked (`matchContents_kustomized_iff`): the mask, parsed once for the document and twice for
the request, leaves the same of the request, and hides the name if the names are not the same.
-/

import IntegrityShield.Mapnode.Overlay
import IntegrityShield.Shield.Sign

namespace IntegrityShield
namespace Shield

open Common Apis Mapnode SignatureEvaluator

/-- The name of an object. -/
def HasName (r : JsonMap) (name : String) : Prop :=
  ∃ metadata, r.lookup "metadata" = some (.obj metadata) ∧
    metadata.lookup "name" = some (.scalar (.str name))

/-- The object under another name. -/
def renamed (r : JsonMap) (name : String) : JsonMap :=
  match r.lookup "metadata" with
  | some (.obj metadata) =>
      setField "metadata" (.obj (setField "name" (.scalar (.str name)) metadata)) r
  | _ => r

theorem renamed_self {r : JsonMap} {name : String} (h : HasName r name) : renamed r name = r := by
  obtain ⟨metadata, hmetadata, hname⟩ := h
  rw [renamed, hmetadata]
  simp only [setField_of_lookup hname, setField_of_lookup hmetadata]

/-- The tree of an object under another name. -/
theorem newFromMap_renamed {r : JsonMap} {name : String} (h : HasName r name) :
    ∃ fields, (newFields r).lookup "metadata" = some (.map fields) ∧
      fields.lookup "name" = some (.value (.str name)) ∧
      ∀ other, newFromMap (renamed r other) = .map (setField "metadata"
        (.map (setField "name" (.value (.str other)) fields)) (newFields r)) := by
  obtain ⟨metadata, hmetadata, hname⟩ := h
  refine ⟨newFields metadata, ?_, ?_, fun other => ?_⟩
  · rw [lookup_newFields, hmetadata]
    rfl
  · rw [lookup_newFields, hname]
    rfl
  · rw [newFromMap, renamed, hmetadata]
    simp only [newNode, newFields_setField]

theorem sameShape_renamed {r : JsonMap} {name : String} (h : HasName r name) (other : String) :
    (newFromMap r).SameShape (newFromMap (renamed r other)) := by
  obtain ⟨fields, hfields, hname, hrenamed⟩ := newFromMap_renamed h
  rw [hrenamed]
  exact sameShape_setField hfields (sameShape_setField hname (sameShape_value _ _))

section Match

variable [Outside]

/-- What an object shows at a path when keys mask it. -/
def shown (keys : List String) (r : JsonMap) (path : String) : Option Scalar :=
  ((newFromMap r).recursiveMask keys "").valueAt path

/-- A masked object still shows its name: whatever the name, it is what stands at its path. -/
def ShowsName (keys : List String) (r : JsonMap) : Prop :=
  ∀ name, shown keys (renamed r name) "metadata.name" = some (.str name)

theorem shown_eq_lastAt {keys : List String} {r : JsonMap} {fields : List (String × Node)}
    (h : newFromMap r = .map fields) (path : String) :
    shown keys r path =
      GoMap.lastAt (keptFieldLeaves (fun p => keys.any (isListed p)) "" "" fields) path := by
  rw [shown, Node.valueAt, Node.leaves, leavesFrom_recursiveMask, h, Node.keptLeavesFrom]

/-- Another name shows at the path of the name only. -/
theorem shown_renamed {keys : List String} {r : JsonMap} {name : String} (h : HasName r name)
    (other : String) {path : String} (hpath : path ≠ "metadata.name") :
    shown keys (renamed r other) path = shown keys r path := by
  obtain ⟨fields, hfields, hname, hrenamed⟩ := newFromMap_renamed h
  rw [shown_eq_lastAt (hrenamed other), shown_eq_lastAt (r := r) rfl]
  refine lastAt_keptFieldLeaves_setField _ _ _ fun _ => ?_
  rw [hfields, Option.getD_some, Node.keptLeavesFrom, Node.keptLeavesFrom]
  refine lastAt_keptFieldLeaves_setField _ _ _ fun _ => ?_
  have hkey : childKey (childKey "" "metadata") "name" ≠ path := by
    rw [show childKey (childKey "" "metadata") "name" = "metadata.name" by decide]
    exact Ne.symm hpath
  rw [hname, Option.getD_some, Node.keptLeavesFrom, Node.keptLeavesFrom]
  simp only [GoMap.lastAt_cons, if_neg hkey]

/-- **A masked object shows its name, or nothing of it.** -/
theorem showsName_or_shown_eq {r : JsonMap} {name : String} (h : HasName r name)
    (keys : List String) :
    ShowsName keys r ∨ ∀ other path, shown keys (renamed r other) path = shown keys r path := by
  obtain ⟨fields, hfields, _, hrenamed⟩ := newFromMap_renamed h
  have hfollows : Follows (fun other => shown keys (renamed r other) "metadata.name")
      fun other => .str other := by
    simp only [shown_eq_lastAt (hrenamed _)]
    refine follows_setField _ _ _ ?_ _
    simp only [Node.keptLeavesFrom]
    exact follows_setField _ _ _ (Or.inl fun other => rfl) _
  rcases hfollows with hshows | hsame
  · exact Or.inl hshows
  · refine Or.inr fun other path => ?_
    by_cases hpath : path = "metadata.name"
    · have hself := hsame other name
      simp only [renamed_self h] at hself
      rw [hpath, hself]
    · exact shown_renamed h other hpath

/-- The keys that a mask stands for on an object: for the signed document, which has its shape, and
for the request, whose mask is the one left by the first call, parsed already. -/
def ExpandsTo (mask : List String) (r : JsonMap) (once twice : List String) : Prop :=
  ∃ parsed left, (newFromMap r).validateKeyList mask = .ok (once, parsed) ∧
    (newFromMap r).validateKeyList parsed = .ok (twice, left)

/-- **A mask under which another name goes unnoticed**: it can be expanded; beside the name it
leaves the same of the request, parsed once and twice; and where the document shows the signed name
the request does, too. -/
def HidesRenaming (mask : List String) (r : JsonMap) (signedName : String) : Prop :=
  ∃ once twice, ExpandsTo mask r once twice ∧
    (∀ path, path ≠ "metadata.name" → shown once r path = shown twice r path) ∧
    (ShowsName once r → shown twice r "metadata.name" = some (.str signedName)) ∧
    (¬ShowsName once r → shown once r "metadata.name" = shown twice r "metadata.name")

/-- A mask that is parsed to the same keys twice hides a new name exactly if it can be expanded and
the object it leaves does not show its name. -/
theorem hidesRenaming_iff_of_parsed {mask : List String} {r : JsonMap} {name signedName : String}
    (h : HasName r name)
    (hparsed : (mask.map parseConcatKey).map parseConcatKey = mask.map parseConcatKey) :
    HidesRenaming mask r signedName ↔
      ∃ keys left, (newFromMap r).validateKeyList mask = .ok (keys, left) ∧
        (signedName = name ∨ ¬ShowsName keys r) := by
  -- what `validateKeyList` returns depends on the parsed keys only
  have htwice : (newFromMap r).validateKeyList (mask.map parseConcatKey) =
      (newFromMap r).validateKeyList mask := by
    rw [Node.validateKeyList, Node.validateKeyList, hparsed]
  have hleft : ∀ {keys left}, (newFromMap r).validateKeyList mask = .ok (keys, left) →
      left = mask.map parseConcatKey := by
    intro keys left hkeys
    rw [Node.validateKeyList, Go.bind_eq_ok] at hkeys
    obtain ⟨_, _, hkeys⟩ := hkeys
    exact (Prod.mk.inj (Except.ok.inj hkeys)).2.symm
  have hself : ∀ keys, ShowsName keys r → shown keys r "metadata.name" = some (.str name) := by
    intro keys hshows
    have := hshows name
    rwa [renamed_self h] at this
  constructor
  · rintro ⟨once, twice, ⟨parsed, left, honce, htwice'⟩, _, hshows, _⟩
    rw [hleft honce, htwice, honce] at htwice'
    obtain ⟨rfl, _⟩ := Prod.mk.inj (Except.ok.inj htwice')
    refine ⟨once, parsed, honce, ?_⟩
    by_cases hname : ShowsName once r
    · have heq := (hself once hname).symm.trans (hshows hname)
      exact Or.inl (Scalar.str.inj (Option.some.inj heq)).symm
    · exact Or.inr hname
  · rintro ⟨keys, left, hkeys, hname⟩
    have hsecond : (newFromMap r).validateKeyList left = .ok (keys, left) := by
      rw [hleft hkeys, htwice, ← hleft hkeys]
      exact hkeys
    refine ⟨keys, keys, ⟨left, left, hkeys, hsecond⟩, fun _ _ => rfl, fun hshows => ?_,
      fun _ => rfl⟩
    rw [hself keys hshows, hname.resolve_right (not_not.2 hshows)]

/-- **When a kustomized object matches its signed base.**  The document is the request under the
name that its signature is looked up by; the contents match exactly if the mask hides the new
name, whatever differences the kustomize patterns allow. -/
theorem matchContents_kustomized_iff (reqc : ReqContext) (kustPatterns : List KustomizePattern)
    (orgObj : Bytes) (reqObj : Option Bytes) (r : JsonMap) (mask : List String)
    (excludeDiffValue : Bool)
    (hreq : Outside.jsonUnmarshal (reqObj.getD "") = .ok r) (hname : HasName r reqc.name)
    (horg : Outside.yamlUnmarshal orgObj = .ok (renamed r (signedRef reqc kustPatterns).name)) :
    (∃ diffStr left, matchContents orgObj reqObj [] mask (makeAllowDiffPatterns reqc kustPatterns)
        excludeDiffValue = .ok ((true, diffStr), left)) ↔
      HidesRenaming mask r (signedRef reqc kustPatterns).name := by
  rw [matchContents_unfocused_iff (newFromYamlBytes_of_yamlUnmarshal horg)
    (newFromBytes_of_jsonUnmarshal hreq)]
  have hshape := sameShape_renamed hname (signedRef reqc kustPatterns).name
  simp only [← hshape.validateKeyList_eq]
  change (∃ once parsed twice left, _ ∧ _ ∧ ∀ path,
    shown once (renamed r (signedRef reqc kustPatterns).name) path = shown twice r path) ↔ _
  constructor
  · rintro ⟨once, parsed, twice, left, honce, htwice, hsame⟩
    refine ⟨once, twice, ⟨parsed, left, honce, htwice⟩, fun path hpath => ?_, fun hshows => ?_,
      fun hhidden => ?_⟩
    · rw [← hsame, shown_renamed hname _ hpath]
    · rw [← hsame, hshows]
    · rw [← hsame, ((showsName_or_shown_eq hname once).resolve_left hhidden)]
  · rintro ⟨once, twice, ⟨parsed, left, honce, htwice⟩, hothers, hshown, hhidden⟩
    refine ⟨once, parsed, twice, left, honce, htwice, fun path => ?_⟩
    by_cases hpath : path = "metadata.name"
    · subst hpath
      by_cases hshows : ShowsName once r
      · rw [hshows, hshown hshows]
      · rw [(showsName_or_shown_eq hname once).resolve_left hshows, hhidden hshows]
    · rw [shown_renamed hname _ hpath, hothers path hpath]

end Match

/-- An object with nothing but a name. -/
def namedJson (name : String) : JsonMap := [("metadata", .obj [("name", .scalar (.str name))])]

theorem hasName_namedJson (name : String) : HasName (namedJson name) name :=
  ⟨[("name", .scalar (.str name))], rfl, rfl⟩

/-- Every config map is signed without the prefix `dev-`. -/
def devPattern : KustomizePattern where
  matches_ := [some { kind := some "ConfigMap" }]
  namePrefix := some "dev-"

def devProfile : ResourceSigningProfile := { spec := { kustomizePatterns := [some devPattern] } }

def devRequest : ReqContext := { kind := "ConfigMap", name := "dev-web", rawObject := some "request" }

theorem kustomize_devRequest : devProfile.kustomize devRequest.map = .ok [devPattern] := by
  decide +kernel

theorem name_signedRef_devRequest :
    letI := Outside.silent
    (signedRef devRequest [devPattern]).name = "web" := by
  decide +kernel

/-- A mask with the name in it hides the prefix. -/
theorem matchContents_kustomized_masked :
    letI := Outside.reading (namedJson "web") (namedJson "dev-web")
    ∃ diffStr left, matchContents "signed" (some "request") [] ["metadata.name"]
      (makeAllowDiffPatterns devRequest [devPattern]) false = .ok ((true, diffStr), left) := by
  let _ := Outside.reading (namedJson "web") (namedJson "dev-web")
  have hsigned : (signedRef devRequest [devPattern]).name = "web" := name_signedRef_devRequest
  have hhidden : ¬ShowsName ["metadata.name"] (namedJson "dev-web") :=
    fun hshows => absurd (hshows "web") (by decide +kernel)
  refine (matchContents_kustomized_iff devRequest [devPattern] "signed" (some "request")
    (namedJson "dev-web") ["metadata.name"] false rfl (hasName_namedJson "dev-web")
    (by rw [hsigned]; rfl)).2 ?_
  exact (hidesRenaming_iff_of_parsed (hasName_namedJson "dev-web") (by decide +kernel)).2
    ⟨["metadata.name"], ["metadata.name"], by decide +kernel, Or.inr hhidden⟩

/-- **The prefix is reported.**  The request is for `dev-web`, the document it was signed with is
the same object under the name `web`, and the profile says that the prefix is added; the allowed
difference is the one in the other direction. -/
theorem matchContents_prefix_reported :
    letI := Outside.reading (namedJson "web") (namedJson "dev-web")
    devProfile.kustomize devRequest.map = .ok [devPattern] ∧
      HasName (namedJson "dev-web") devRequest.name ∧
      (signedRef devRequest [devPattern]).name = "web" ∧
      renamed (namedJson "dev-web") "web" = namedJson "web" ∧
      makeAllowDiffPatterns devRequest [devPattern] =
        [⟨"metadata.name", some (.str "dev-web"), some (.str "web")⟩] ∧
      ∃ res, matchContents "signed" (some "request") [] ["metadata.namespace"]
        (makeAllowDiffPatterns devRequest [devPattern]) false = .ok res ∧ res.1.1 = false := by
  let _ := Outside.reading (namedJson "web") (namedJson "dev-web")
  exact ⟨kustomize_devRequest, hasName_namedJson "dev-web", name_signedRef_devRequest, rfl,
    by decide +kernel, Go.exists_of_toOption_map (by decide +kernel)⟩

end Shield
end IntegrityShield
