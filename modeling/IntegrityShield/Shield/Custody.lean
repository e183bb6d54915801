/-
# Where the stored objects come from

The shield lets an update pass without a signature if nothing that matters has changed.  So an
object that is stored need not have been signed as it is: a signed request may have been followed by
any number of unsigned updates.

Here the history of one object in the cluster is followed through all requests about it that the
server has answered.  An admitted object is stored with the patch of the shield.  Others may write
to the stored object without asking the shield, as the API server does, or who changes a
subresource; `K` is a set of paths that they leave alone.

As long as a profile guards the object, what is stored at these paths is what a signed request had
there, or what had been there before (`stored_was_signed`).  The paths must not be those of list
elements, because the mutation check confuses them, nor those that the shield itself writes to, nor
may the profile ignore them.

A request that the server does not answer is refused: the webhook has no failure policy of its own.
-/

import IntegrityShield.Shield.Mediation
import IntegrityShield.Shield.PatchedObject

namespace IntegrityShield
namespace Shield

open Common Apis Mapnode

section History

variable [Outside]

/-- A request that the server has answered. -/
structure Answered where
  config : ShieldConfig
  req : AdmissionRequest
  world : World
  reqc : ReqContext
  result : Handler.RunResult
  reqc_eq : newReqContext req = .ok reqc
  result_eq : Handler.run config req world = .ok result

namespace Answered

variable (a : Answered) (p : ResourceSigningProfile)

/-- What the scope check saw. -/
def seen : RunData := scopeData a.reqc a.config a.world.scope (RunData.init a.config a.world.init)

/-- What the protection check saw. -/
def loaded : RunData := a.seen.getRuleTable a.config.namespace a.world.protect

/-- The request is up to a profile: the shield is in force, and the request is about a resource in
its scope that is not its own and that the profile protects, as it was merged with the common one
into the rule table. -/
structure GuardedBy : Prop where
  enforced : a.config.mode ≠ .detect
  unbroken : checkIfBreakGlassEnabled a.reqc a.result.final.data.signerConfig ≠ .ok true
  inScope : ¬OutOfScope a.config a.reqc a.seen
  foreign : ¬IShieldResource a.config a.reqc
  guarded : ∃ table protection, a.loaded.ruleTable = some table ∧
    table.checkIfProtected a.reqc.map = .ok protection ∧ p ∈ protection.matchedProfiles

/-- The signature of the request was accepted for a profile, with the signer configuration and the
signatures that were loaded for it. -/
def SignedFor : Prop :=
  ∃ i signerConfig r,
    (dataAfter a.world.profile a.loaded (i + 1)).signerConfig = some signerConfig ∧
    (newSignatureEvaluator a.config signerConfig.config).eval a.reqc
      (dataAfter a.world.profile a.loaded (i + 1)).resSigList p = .ok r ∧
    r.checked = true ∧ r.allow = true

/-- The mutation check of an update finds no mutation. -/
def Unmutated : Prop :=
  ∃ m, mutationEval a.reqc p = .ok m ∧ m.checked = true ∧ m.isMutated = false

variable {a p}

/-- Why a guarded request is allowed. -/
theorem signed_or_unmutated (hguarded : a.GuardedBy p) (hallowed : a.result.response.allowed = true)
    (hdelete : a.reqc.isDeleteRequest = false) :
    a.SignedFor p ∨ a.reqc.isUpdateRequest = true ∧ a.Unmutated p := by
  obtain ⟨table, protection, htable, hprotection, hp⟩ := hguarded.guarded
  rcases (run_response a.reqc_eq a.result_eq).2.1 hallowed with hdetect | hbroken | hadmitted
  · exact absurd hdetect hguarded.enforced
  · exact absurd hbroken hguarded.unbroken
  rcases hadmitted with hscope | ⟨-, ⟨hown, -⟩ | ⟨-, hdeletes | haccept⟩⟩
  · exact absurd hscope hguarded.inScope
  · exact absurd hown hguarded.foreign
  · exact absurd (hdelete.symm.trans hdeletes) Bool.false_ne_true
  rcases haccept with hnone | ⟨table', protection', htable', hprotection', haccepts⟩
  · exact absurd (htable.symm.trans hnone) (Option.some_ne_none _)
  obtain rfl := Option.some.inj (htable.symm.trans htable')
  obtain rfl := Except.ok.inj (hprotection.symm.trans hprotection')
  obtain ⟨i, hi⟩ := List.getElem?_of_mem hp
  rcases haccepts i p hi with ⟨hupdate, hunmutated⟩ | ⟨signerConfig, r, hconfig, heval, hr⟩
  · exact Or.inr ⟨hupdate, hunmutated⟩
  · exact Or.inl ⟨i, signerConfig, r, hconfig, heval, hr⟩

end Answered

/-! ## The history of an object -/

/-- Two objects show the same at some paths, but for what the mutation check masks anyway. -/
def AgreeOn (K : Set String) (o o' : JsonMap) : Prop :=
  ∀ k ∈ K, (maskedObject o).valueAt k = (maskedObject o').valueAt k

variable {K : Set String}

theorem AgreeOn.refl (K : Set String) (o : JsonMap) : AgreeOn K o o := fun _ _ => rfl

theorem AgreeOn.trans {o o' o'' : JsonMap} (h : AgreeOn K o o') (h' : AgreeOn K o' o'') :
    AgreeOn K o o'' := fun k hk => (h k hk).trans (h' k hk)

/-- What is stored for an admitted object: the object with the patch of the shield, and with what
others write. -/
def Answered.Stores (a : Answered) (K : Set String) (new stored : JsonMap) : Prop :=
  HasStringMaps new ∧
    match a.result.response.patch with
    | none => AgreeOn K new stored
    | some request => ∃ patched, request.apply new = some (.obj patched) ∧ AgreeOn K patched stored

/-- What happens to an object: a request about it, or a write that does not ask the shield. -/
inductive ObjectChange (K : Set String) :
    Option JsonMap → Option Answered → Option JsonMap → Prop where
  | created {a : Answered} {new stored : JsonMap} (hallowed : a.result.response.allowed = true)
      (hcreate : a.reqc.isCreateRequest = true)
      (hnew : Outside.jsonUnmarshal (a.reqc.rawObject.getD "") = .ok new)
      (hstores : a.Stores K new stored) : ObjectChange K none (some a) (some stored)
  | updated {a : Answered} {old new stored : JsonMap} (hallowed : a.result.response.allowed = true)
      (hupdate : a.reqc.isUpdateRequest = true) (hobjects : HasObjects a.reqc old new)
      (hstores : a.Stores K new stored) : ObjectChange K (some old) (some a) (some stored)
  | deleted {a : Answered} {old : JsonMap} (hallowed : a.result.response.allowed = true)
      (hdelete : a.reqc.isDeleteRequest = true) : ObjectChange K (some old) (some a) none
  /-- a request that is refused, or that the API server does not carry out -/
  | dropped {a : Answered} {s : Option JsonMap} : ObjectChange K s (some a) s
  | written {old stored : JsonMap} (hsame : AgreeOn K old stored) :
      ObjectChange K (some old) none (some stored)

/-- The object after some requests about it. -/
inductive ObjectHistory (K : Set String) (start : Option JsonMap) :
    List Answered → Option JsonMap → Prop where
  | start : ObjectHistory K start [] start
  | change {requests : List Answered} {s s' : Option JsonMap} {e : Option Answered}
      (hbefore : ObjectHistory K start requests s) (hchange : ObjectChange K s e s') :
      ObjectHistory K start (requests ++ e.toList) s'

/-- Where an object comes from: it was there at the beginning, or in a signed request. -/
def Traced (p : ResourceSigningProfile) (K : Set String) (start : Option JsonMap)
    (requests : List Answered) (object : JsonMap) : Prop :=
  (∃ o, start = some o ∧ AgreeOn K o object) ∨
    ∃ a ∈ requests, a.SignedFor p ∧
      ∃ new, Outside.jsonUnmarshal (a.reqc.rawObject.getD "") = .ok new ∧ AgreeOn K new object

/-! ## Where it comes from -/

variable {p : ResourceSigningProfile} {start : Option JsonMap} {requests : List Answered}

theorem Traced.of_agree {object object' : JsonMap} (h : Traced p K start requests object)
    (hagree : AgreeOn K object object') : Traced p K start requests object' := by
  rcases h with ⟨o, ho, h⟩ | ⟨a, ha, hsigned, new, hnew, h⟩
  · exact Or.inl ⟨o, ho, h.trans hagree⟩
  · exact Or.inr ⟨a, ha, hsigned, new, hnew, h.trans hagree⟩

theorem Traced.append {object : JsonMap} (h : Traced p K start requests object)
    (more : List Answered) : Traced p K start (requests ++ more) object := by
  rcases h with h | ⟨a, ha, h⟩
  · exact Or.inl h
  · exact Or.inr ⟨a, List.mem_append_left _ ha, h⟩

/-- A patch of the response is the one for the context of the check. -/
theorem Answered.patch_eq {a : Answered} {request : PatchRequest}
    (h : a.result.response.patch = some request) :
    ∃ ctx now, generatePatchBytes a.reqc ctx now = some request := by
  obtain ⟨reqc, _, hreqc, _, _, _, hresponse⟩ := run_eq_ok a.result_eq
  obtain rfl := Except.ok.inj (a.reqc_eq.symm.trans hreqc)
  rw [hresponse] at h
  unfold Handler.respond at h
  split_ifs at h <;> simp only [createAdmissionResponse] at h <;> split_ifs at h <;>
    exact ⟨_, _, h⟩

/-- The patch of the shield leaves the paths alone that it does not write to. -/
theorem Answered.Stores.agreeOn {a : Answered} {new stored : JsonMap} (h : a.Stores K new stored)
    (hK : ∀ k ∈ K, k ∉ shieldPaths) : AgreeOn K new stored := by
  obtain ⟨hmaps, h⟩ := h
  cases hpatch : a.result.response.patch with
  | none =>
      rw [hpatch] at h
      exact h
  | some request =>
      rw [hpatch] at h
      obtain ⟨patched, happly, hagree⟩ := h
      obtain ⟨ctx, now, hgenerate⟩ := a.patch_eq hpatch
      obtain ⟨r', hr'⟩ := exists_patched hgenerate hmaps
      obtain rfl : r' = patched := Json.obj.inj (Option.some.inj (hr'.apply_eq.symm.trans happly))
      refine AgreeOn.trans (fun k hk => ?_) hagree
      refine (hr'.valueAt_recursiveMask parsedMutationMask fun path hpath _ hkpath => ?_).symm
      exact hK k hk (hkpath ▸ hr'.paths path hpath)

/-- An update without mutation leaves the paths alone that have no index and that the profile does
not ignore. -/
theorem agreeOn_of_unmutated {a : Answered} {old new : JsonMap}
    (hobjects : HasObjects a.reqc old new) (h : a.Unmutated p) (hK : ∀ k ∈ K, hasIndex k = false)
    (hkept : ∀ k ∈ K, ∀ attr ∈ filterAttrs a.reqc p, isListed k (attr ++ "*") = false) :
    AgreeOn K old new := by
  intro k hk
  by_contra hne
  rcases ((mutationEval_passes_iff hobjects p).1 h).2 k hne with hcancelled | ⟨attr, hattr, hlisted⟩
  · exact absurd ((hK k hk).symm.trans hcancelled.1) Bool.false_ne_true
  · exact absurd ((hkept k hk attr hattr).symm.trans hlisted) Bool.false_ne_true

omit [Outside] in
theorem operation_of_create {reqc : ReqContext} (h : reqc.isCreateRequest = true) :
    reqc.isDeleteRequest = false ∧ reqc.isUpdateRequest = false := by
  rw [ReqContext.isCreateRequest, beq_iff_eq] at h
  rw [ReqContext.isDeleteRequest, ReqContext.isUpdateRequest, h]
  decide

omit [Outside] in
theorem operation_of_update {reqc : ReqContext} (h : reqc.isUpdateRequest = true) :
    reqc.isDeleteRequest = false := by
  rw [ReqContext.isUpdateRequest, beq_iff_eq] at h
  rw [ReqContext.isDeleteRequest, h]
  decide

/-- What one change keeps. -/
theorem traced_change {s s' : Option JsonMap} {e : Option Answered}
    (hchange : ObjectChange K s e s') (hK : ∀ k ∈ K, hasIndex k = false ∧ k ∉ shieldPaths)
    (hguarded : ∀ a ∈ e, a.GuardedBy p)
    (hkept : ∀ a ∈ e, ∀ k ∈ K, ∀ attr ∈ filterAttrs a.reqc p, isListed k (attr ++ "*") = false)
    (htraced : ∀ object, s = some object → Traced p K start requests object) :
    ∀ object, s' = some object → Traced p K start (requests ++ e.toList) object := by
  intro object hobject
  have hpaths : ∀ k ∈ K, k ∉ shieldPaths := fun k hk => (hK k hk).2
  have hsigned : ∀ (a : Answered) (new : JsonMap), e = some a → a.SignedFor p →
      Outside.jsonUnmarshal (a.reqc.rawObject.getD "") = .ok new → AgreeOn K new object →
        Traced p K start (requests ++ e.toList) object := by
    rintro a new rfl hsigned hnew hagree
    have ha : a ∈ requests ++ (some a).toList :=
      List.mem_append_right _ (List.mem_singleton_self a)
    exact Or.inr ⟨a, ha, hsigned, new, hnew, hagree⟩
  cases hchange with
  | @created a new stored hallowed hcreate hnew hstores =>
      obtain rfl := Option.some.inj hobject
      obtain ⟨hdelete, hupdate⟩ := operation_of_create hcreate
      rcases Answered.signed_or_unmutated (hguarded a rfl) hallowed hdelete with h | ⟨h, -⟩
      · exact hsigned a new rfl h hnew (hstores.agreeOn hpaths)
      · exact absurd (hupdate.symm.trans h) Bool.false_ne_true
  | @updated a old new stored hallowed hupdate hobjects hstores =>
      obtain rfl := Option.some.inj hobject
      have hdelete := operation_of_update hupdate
      rcases Answered.signed_or_unmutated (hguarded a rfl) hallowed hdelete with h | ⟨-, h⟩
      · exact hsigned a new rfl h hobjects.newObject (hstores.agreeOn hpaths)
      · have hagree := agreeOn_of_unmutated hobjects h (fun k hk => (hK k hk).1) (hkept a rfl)
        exact ((htraced old rfl).of_agree (hagree.trans (hstores.agreeOn hpaths))).append _
  | deleted => cases hobject
  | dropped => exact (htraced object hobject).append _
  | @written old stored hagree =>
      obtain rfl := Option.some.inj hobject
      exact ((htraced old rfl).of_agree hagree).append _

/-- What a whole history keeps. -/
theorem traced_history (hK : ∀ k ∈ K, hasIndex k = false ∧ k ∉ shieldPaths)
    {s : Option JsonMap} (hhistory : ObjectHistory K start requests s)
    (hguarded : ∀ a ∈ requests, a.GuardedBy p)
    (hkept : ∀ a ∈ requests, ∀ k ∈ K, ∀ attr ∈ filterAttrs a.reqc p,
      isListed k (attr ++ "*") = false) :
    ∀ object, s = some object → Traced p K start requests object := by
  induction hhistory with
  | start => exact fun object hobject => Or.inl ⟨object, hobject, AgreeOn.refl K object⟩
  | change _ hchange ih =>
      obtain ⟨hguarded, hguarded'⟩ := List.forall_mem_append.1 hguarded
      obtain ⟨hkept, hkept'⟩ := List.forall_mem_append.1 hkept
      exact traced_change hchange hK (fun a ha => hguarded' a (Option.mem_toList.2 ha))
        (fun a ha => hkept' a (Option.mem_toList.2 ha)) (ih hguarded hkept)

end History

/-- A profile of the namespace `ns` for its config maps. -/
def configMapProfile : ResourceSigningProfile where
  «namespace» := "ns"
  spec := { secureProfile.spec with protectAttrs := kindProfile.spec.protectAttrs }

/-- A shield in force for the namespace `ns`, with a key for `alice` and one for `bob`. -/
def keyedConfig : ShieldConfig :=
  { guardedConfig with
    inScopeNamespaceSelector := some { include_ := ["ns"] }
    keyPathList := twoSignersEvaluator.config.keyPathList }

/-- The profile and the signers are cached. -/
def keyedWorld : World where
  init := { rsp := { cached := some [configMapProfile] } }
  profile := fun _ => { signerConfig := { cached := some [⟨some twoSigners⟩] } }
  overwrite := { cached := some [⟨some twoSigners⟩] }

/-- The creation of a config map by `alice`, with their signature. -/
def aliceCreates : AdmissionRequest where
  object := some "request"
  value := fun path => List.lookup path [("name", "cm"), ("namespace", "ns"),
    ("kind.version", "v1"), ("kind.kind", "ConfigMap"), ("operation", "CREATE"),
    ("userInfo.username", "alice")]
  entries := fun path =>
    if path = "object.metadata.annotations" then configMapCreate.claimedMetadata.annotations else ∅

/-- Its context. -/
def aliceContext : ReqContext := { configMapCreate with userName := "alice" }

/-- The profile that guards it, as it is merged into the rule table. -/
theorem exists_guard :
    ∃ table protection p,
      ((scopeData aliceContext keyedConfig {}
        (RunData.init keyedConfig keyedWorld.init)).getRuleTable "shield" {}).ruleTable =
          some table ∧
      table.checkIfProtected aliceContext.map = .ok protection ∧
      p ∈ protection.matchedProfiles ∧ filterAttrs aliceContext p = [] := by
  have hcomputed : ((scopeData aliceContext keyedConfig {}
      (RunData.init keyedConfig keyedWorld.init)).getRuleTable "shield" {}).ruleTable.bind
        (fun table => (table.checkIfProtected aliceContext.map).toOption.map fun protection =>
          protection.matchedProfiles.map (filterAttrs aliceContext)) = some [[]] := by
    decide +kernel
  obtain ⟨table, htable, h⟩ := Option.bind_eq_some_iff.1 hcomputed
  obtain ⟨protection, hprotection, h⟩ := Go.exists_of_toOption_map h
  obtain ⟨p, hp, hattrs⟩ := List.mem_map.1 (h ▸ List.mem_singleton_self [])
  exact ⟨table, protection, p, htable, hprotection, hp, hattrs⟩

end Shield
end IntegrityShield
