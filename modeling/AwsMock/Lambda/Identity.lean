import AwsMock.Lambda.ExclusiveInstance
import AwsMock.Lambda.Functions

/-!
# The object ids of the functions

A lookup writes an object id into the record it finds, and an update writes the one that the caller's copy
carries. Requests of all kinds in every order of their calls: what they are handed out is found again by its
object id as long as no function is looked up by its ARN, and each update finds the record its copy is of.
-/

namespace AwsMock.Lambda

open Lib

/-- `GetLambdaById` finds the record under its object id. -/
def LambdaMemoryDb.Resolves (db : LambdaMemoryDb) (lambda : Lambda) : Prop :=
  (db.getLambdaById lambda.oid).1 = .ok lambda

instance (db : LambdaMemoryDb) (lambda : Lambda) : Decidable (db.Resolves lambda) :=
  inferInstanceAs (Decidable (_ = _))

/-- What a caller that works on a record leaves as it is. -/
def Lambda.CopiedTo (lambda copy : Lambda) : Prop :=
  copy.oid = lambda.oid ∧ copy.region = lambda.region ∧ copy.function = lambda.function

instance (lambda copy : Lambda) : Decidable (lambda.CopiedTo copy) := inferInstanceAs (Decidable (_ ∧ _))

/-! ### Steps -/

namespace StoreCall

def arn? : StoreCall → Option Str
  | lambda (.getLambdaByArn arn) => some arn
  | _ => none

def updated? : StoreCall → Option Lambda
  | lambda (.updateLambda record) => some record
  | _ => none

/-- The object id that a request hands to a creator: in a thread of its own, or, for an invocation, in one that
    it waits for and that starts with a lookup. -/
def handed? (label : StoreTask) : StoreCall → Option Str
  | startCreator _ functionId _ => some functionId
  | lambda (.getLambdaById functionId) =>
    match label with
    | .ofRegion _ (.invoke _) => some functionId
    | _ => none
  | _ => none

/-- The region of a deletion and the name. -/
def deleted? (label : StoreTask) : StoreCall → Option (Str × Str)
  | lambda (.deleteLambda functionName) =>
    match label with
    | .ofRegion region (.deleteFunction _) => some (region, functionName)
    | _ => none
  | _ => none

end StoreCall

/-- What a thread is and calls next. -/
def callOf (x : StorePool) (i : Nat) : Option (StoreTask × StoreCall) :=
  x.1[i]?.bind fun t => t.prog.next.map fun c => (t.label, c)

/-- After the call of the `i`-th thread: the records that it was handed out are found by their object ids, a
    creator finds a function under the id it is handed, and a deletion has left the functions of other regions. -/
structure IdentifiesCall (label : StoreTask) (c : StoreCall) (i : Nat) (s s' : Store) : Prop where
  lookup : c.looksUp = true → ∀ e ∈ s'.held i, s'.db.Resolves e.2
  creator : ∀ id ∈ c.handed? label, (s.db.getLambdaById id).1.isOk = true
  deletion : ∀ d ∈ c.deleted? label, ∀ e ∈ s.db.lambdas.entries, e.2.region ≠ d.1 →
    s'.db.lambdas.get? e.1 = some e.2

def Identifies (rt : Runtime) (uuid : Nat → Str) (accountId : Str) (i : Nat) (x : StorePool) : Prop :=
  ∀ n ∈ callOf x i, ∀ y ∈ storeTurn rt uuid accountId i x, IdentifiesCall n.1 n.2 i x.2 y.2

/-- No stored function is looked up by its ARN; an update finds the record that its copy was read from; what a
    creator is handed has not been deleted since it was read; and a deletion finds no function of the name in
    another region. -/
structure MindfulCall (label : StoreTask) (c : StoreCall) (held : List (Str × Lambda)) (db : LambdaMemoryDb) :
    Prop where
  byArn : ∀ arn ∈ c.arn?, db.lambdaExistsByArn arn = false
  update : ∀ lambda ∈ c.updated?, ∀ found ∈ db.findUpdated lambda,
    ∃ copy ∈ held, copy.1 = found.1 ∧ copy.2.CopiedTo lambda
  creator : (c.handed? label).isSome = true → ∀ copy ∈ held, (db.lambdas.get? copy.1).isSome = true
  deletion : ∀ d ∈ c.deleted? label, ∀ e ∈ db.lambdas.entries, e.2.function = d.2 → e.2.region = d.1

def Mindful (i : Nat) (x : StorePool) : Prop := ∀ n ∈ callOf x i, MindfulCall n.1 n.2 (x.2.held i) x.2.db

instance (label : StoreTask) (c : StoreCall) (i : Nat) (s s' : Store) : Decidable (IdentifiesCall label c i s s') :=
  decidable_of_iff (_ ∧ _ ∧ _)
    ⟨fun ⟨h, h', h''⟩ => ⟨h, h', h''⟩, fun h => ⟨h.lookup, h.creator, h.deletion⟩⟩

instance (label : StoreTask) (c : StoreCall) (held : List (Str × Lambda)) (db : LambdaMemoryDb) :
    Decidable (MindfulCall label c held db) :=
  decidable_of_iff (_ ∧ _ ∧ _ ∧ _) ⟨fun ⟨h, h', h'', h'''⟩ => ⟨h, h', h'', h'''⟩,
    fun h => ⟨h.byArn, h.update, h.creator, h.deletion⟩⟩

instance (rt : Runtime) (uuid : Nat → Str) (accountId : Str) (i : Nat) (x : StorePool) :
    Decidable (Identifies rt uuid accountId i x) := inferInstanceAs (Decidable (∀ n ∈ callOf x i, _))

instance (i : Nat) (x : StorePool) : Decidable (Mindful i x) :=
  inferInstanceAs (Decidable (∀ n ∈ callOf x i, _))

/-! ### The store -/

/-- Each record has its key for its object id. -/
def LambdaMemoryDb.Identified (db : LambdaMemoryDb) : Prop :=
  ∀ key lambda, db.lambdas.get? key = some lambda → lambda.oid = key

variable {db : LambdaMemoryDb} {key : Str} {lambda : Lambda}

theorem resolves_of_get? (hget : db.lambdas.get? key = some lambda) (hoid : lambda.oid = key) : db.Resolves lambda := by
  subst hoid
  rw [LambdaMemoryDb.Resolves, LambdaMemoryDb.getLambdaById, hget]

theorem Identified.insert (h : db.Identified) (hoid : lambda.oid = key) :
    LambdaMemoryDb.Identified ⟨db.lambdas.insert key lambda⟩ := by
  intro key' lambda' hget
  rw [OrderedMap.get?_insert] at hget
  split at hget
  · next heq =>
    cases hget
    rw [heq, hoid]
  · exact h key' lambda' hget

theorem Identified.setInstanceStatus (h : db.Identified) (containerId : Str) (status : LambdaInstanceStatus) :
    (db.setInstanceStatus containerId status).Identified := by
  intro key' lambda' hget
  rw [LambdaMemoryDb.setInstanceStatus, OrderedMap.get?_mapVal] at hget
  obtain ⟨lambda, hlambda, rfl⟩ := Option.map_eq_some_iff.mp hget
  exact h key' lambda hlambda

theorem Identified.deleteLambda (h : db.Identified) (functionName : Str) :
    (db.deleteLambda functionName).Identified := by
  intro key' lambda' hget
  rw [LambdaMemoryDb.deleteLambda, OrderedMap.get?_eraseIf] at hget
  exact h key' lambda' (Option.filter_eq_some_iff.mp hget).1

/-- Where no function has another region, a deletion leaves those of other regions. -/
theorem get?_deleteLambda {region name : Str}
    (h : ∀ e ∈ db.lambdas.entries, e.2.function = name → e.2.region = region)
    {e : Str × Lambda} (he : e ∈ db.lambdas.entries) (hne : e.2.region ≠ region) :
    (db.deleteLambda name).lambdas.get? e.1 = some e.2 := by
  rw [LambdaMemoryDb.deleteLambda, OrderedMap.get?_eraseIf, OrderedMap.get?_eq_some.mpr he, Option.filter_some,
    if_pos]
  simpa using fun hname => hne (h e he hname)

/-- A lookup that keeps the object ids, and hands out a record as it is stored then. -/
structure Hands (key : Option Str) (r : Except Error Lambda × LambdaMemoryDb) : Prop where
  identified : r.2.Identified
  stored : ∀ e ∈ keyed key r.1, r.2.lambdas.get? e.1 = some e.2

theorem hands_error (h : db.Identified) (found : Option Str) (e : Error) : Hands found (.error e, db) where
  identified := h
  stored _ he := by
    rcases found with _ | key <;> cases he

theorem hands_ok (hdb : db.Identified) (hget : db.lambdas.get? key = some lambda) :
    Hands (some key) (.ok lambda, db) where
  identified := hdb
  stored e he := by
    cases List.mem_singleton.mp he
    exact hget

/-- A lookup that writes the key into the record. -/
theorem hands_withOid (h : db.Identified) (key : Str) (lambda : Lambda) :
    Hands (some key) (.ok { lambda with oid := key }, db.withOid key key lambda) :=
  hands_ok (Identified.insert h rfl) (OrderedMap.get?_insert_self ..)

theorem hands_getLambdaById (h : db.Identified) (oid : Str) : Hands (some oid) (db.getLambdaById oid) := by
  unfold LambdaMemoryDb.getLambdaById
  split
  · exact hands_error h _ _
  · exact hands_withOid h oid _

theorem hands_getLambdaByName (h : db.Identified) (region name : Str) :
    Hands ((db.findLambda fun lambda => lambda.region = region ∧ lambda.function = name).map Prod.fst)
      (db.getLambdaByName region name) := by
  unfold LambdaMemoryDb.getLambdaByName
  split
  · exact hands_error h _ _
  · next key lambda hfound =>
    rw [hfound]
    exact hands_withOid h key lambda

theorem hands_getLambdaByArn (h : db.Identified) {arn : Str} (harn : db.lambdaExistsByArn arn = false) :
    Hands ((db.findLambda fun lambda => lambda.arn = arn).map Prod.fst) (db.getLambdaByArn arn) := by
  rw [LambdaMemoryDb.lambdaExistsByArn, Option.isSome_eq_false_iff, Option.isNone_iff_eq_none] at harn
  rw [LambdaMemoryDb.getLambdaByArn, harn]
  exact hands_error h _ _

/-- The record is stored before it is looked up, with whatever object id it has. -/
theorem hands_createLambda (h : db.Identified) (oid : Str) (lambda : Lambda) :
    Hands (some oid) (db.createLambda oid lambda) := by
  have hcreated : db.createLambda oid lambda =
      (.ok { lambda with oid := oid }, db.withOid oid oid lambda) := by
    rw [LambdaMemoryDb.createLambda, LambdaMemoryDb.getLambdaById, OrderedMap.get?_insert_self]
    simp [LambdaMemoryDb.withOid]
  rw [hcreated]
  exact hands_withOid h oid lambda

theorem hands_updateLambda (h : db.Identified) {held : List (Str × Lambda)}
    (hheld : ∀ copy ∈ held, copy.2.oid = copy.1)
    (hupdate : ∀ found ∈ db.findUpdated lambda, ∃ copy ∈ held, copy.1 = found.1 ∧ copy.2.CopiedTo lambda) :
    Hands ((db.findUpdated lambda).map Prod.fst) (db.updateLambda lambda) := by
  unfold LambdaMemoryDb.updateLambda
  split
  · exact hands_error h _ _
  · next key old hfound =>
    obtain ⟨copy, hcopy, hkey, hcopied⟩ := hupdate _ hfound
    have hoid : lambda.oid = key := hcopied.1.trans ((hheld copy hcopy).trans hkey)
    rw [hfound]
    exact hands_ok (Identified.insert h hoid) (OrderedMap.get?_insert_self ..)

/-! ### Calls -/

variable {rt : Runtime} {uuid : Nat → Str} {accountId : Str} {i : Nat} {s s' : Store}

/-- What a call of the module makes of the store. -/
def dbAfter (db : LambdaMemoryDb) : LambdaCall → LambdaMemoryDb
  | .getLambdaById oid => (db.getLambdaById oid).2
  | .getLambdaByArn arn => (db.getLambdaByArn arn).2
  | .updateLambda lambda => (db.updateLambda lambda).2
  | .setInstanceStatus containerId status => db.setInstanceStatus containerId status
  | .deleteLambda functionName => db.deleteLambda functionName
  | _ => db

theorem exec_db {c : LambdaCall} {r : c.Reply} {w w' : World} {started : List LambdaThread}
    (h : exec rt accountId i c w = some (.goes r w' started)) : w'.db = dbAfter w.db c := by
  cases c with
  | lock =>
    simp only [exec] at h
    split at h <;> cases h
    rfl
  | terminate => cases h
  | _ =>
    cases h
    rfl

/-- The records in the reply to a lookup. -/
def StoreCall.records : (c : StoreCall) → c.Reply → List Lambda
  | .lambda (.listLambdas _), lambdas => lambdas
  | .lambda (.getLambdaById _), r | .lambda (.getLambdaByArn _), r | .lambda (.updateLambda _), r
  | .createLambda _, r | .getLambdaByName .., r => r.toOption.toList
  | _, _ => []

theorem map_keyed {key : Option Str} {r : Except Error Lambda} (h : key = none → ∃ e, r = .error e) :
    (keyed key r).map Prod.snd = r.toOption.toList := by
  rcases key with _ | key
  · obtain ⟨e, rfl⟩ := h rfl
    rfl
  · rcases r with e | lambda <;> rfl

theorem handedOut_listLambdas (db : LambdaMemoryDb) (oid region : Str) :
    (handedOut db oid (.lambda (.listLambdas region))).map Prod.snd = db.listLambdas region := by
  rw [LambdaMemoryDb.listLambdas, handedOut, OrderedMap.values]
  by_cases hregion : region = []
  · simp [hregion]
  · simp [hregion, List.filter_map, Function.comp_def]

/-- What the calls keep: the records and the copies of them have their keys for their object ids. -/
structure StoreSound (s : Store) : Prop where
  identified : s.db.Identified
  held : ∀ i, ∀ copy ∈ s.held i, copy.2.oid = copy.1

theorem handing_sound {c : StoreCall} {oid : Str} {w : World} (hs : StoreSound s) (hw : w.db.Identified)
    (hstored : ∀ e ∈ handedOut s.db oid c, w.db.lambdas.get? e.1 = some e.2) :
    StoreSound (s.handing i c oid w) ∧
      (c.looksUp = true → ∀ e ∈ (s.handing i c oid w).held i, (s.handing i c oid w).db.Resolves e.2) := by
  by_cases hc : c.looksUp = true
  · have hheld : (s.handing i c oid w).held = Function.update s.held i (handedOut s.db oid c) := if_pos hc
    rw [hheld, Function.update_self]
    refine ⟨⟨hw, fun j copy hcopy => ?_⟩, fun _ e he => resolves_of_get? (hstored e he) (hw _ _ (hstored e he))⟩
    rw [hheld] at hcopy
    rcases eq_or_ne j i with rfl | hne
    · rw [Function.update_self] at hcopy
      exact hw _ _ (hstored copy hcopy)
    · rw [Function.update_of_ne hne] at hcopy
      exact hs.held j copy hcopy
  · have hheld : (s.handing i c oid w).held = s.held := if_neg hc
    refine ⟨⟨hw, fun j copy hcopy => ?_⟩, fun hlooks => absurd hlooks hc⟩
    rw [hheld] at hcopy
    exact hs.held j copy hcopy

theorem handedOut_lambda {label : StoreTask} {c : LambdaCall} (hs : StoreSound s)
    (hc : MindfulCall label (.lambda c) (s.held i) s.db) : (dbAfter s.db c).Identified ∧
      ∀ e ∈ handedOut s.db [] (.lambda c), (dbAfter s.db c).lambdas.get? e.1 = some e.2 := by
  have hdb := hs.identified
  cases c with
  | listLambdas region => exact ⟨hdb, fun e he => OrderedMap.get?_eq_some.mpr (List.mem_of_mem_filter he)⟩
  | getLambdaById oid =>
    have hhands := hands_getLambdaById hdb oid
    exact ⟨hhands.identified, hhands.stored⟩
  | getLambdaByArn arn =>
    have hhands := hands_getLambdaByArn hdb (hc.byArn arn rfl)
    exact ⟨hhands.identified, hhands.stored⟩
  | updateLambda lambda =>
    have hhands := hands_updateLambda hdb (hs.held i) (hc.update lambda rfl)
    exact ⟨hhands.identified, hhands.stored⟩
  | setInstanceStatus containerId status =>
    exact ⟨Identified.setInstanceStatus hdb containerId status, fun _ he => absurd he List.not_mem_nil⟩
  | deleteLambda functionName =>
    exact ⟨Identified.deleteLambda hdb functionName, fun _ he => absurd he List.not_mem_nil⟩
  | _ => exact ⟨hdb, fun _ he => absurd he List.not_mem_nil⟩

/-- A mindful call keeps the object ids and hands out records that they find. -/
theorem execStore_sound {label : StoreTask} {c : StoreCall} {r : c.Reply} {started : List StoreThread}
    (hs : StoreSound s) (hc : MindfulCall label c (s.held i) s.db)
    (h : execStore rt uuid accountId i c s = some (.goes r s' started)) :
    StoreSound s' ∧ (c.looksUp = true → ∀ e ∈ s'.held i, s'.db.Resolves e.2) := by
  cases c with
  | lambda c =>
    obtain ⟨turn, hturn, hgoes⟩ := Option.map_eq_some_iff.mp h
    cases turn with
    | waits => cases hgoes
    | goes r w started =>
      cases hgoes
      have hhanded := handedOut_lambda hs hc
      rw [← show w.db = dbAfter s.db c from exec_db hturn] at hhanded
      exact handing_sound hs hhanded.1 hhanded.2
  | createLambda lambda =>
    cases h
    have hhands := hands_createLambda hs.identified (uuid s.calls) lambda
    exact handing_sound hs hhands.identified hhands.stored
  | getLambdaByName region name =>
    cases h
    have hhands := hands_getLambdaByName hs.identified region name
    exact handing_sound hs hhands.identified hhands.stored
  | deleteAllLambdas =>
    cases h
    exact ⟨⟨nofun, hs.held⟩, nofun⟩
  | lambdaExistsIn region function runtime =>
    cases h
    exact ⟨⟨hs.identified, hs.held⟩, nofun⟩
  | startCreator functionCode functionId instanceId =>
    cases h
    exact ⟨⟨hs.identified, hs.held⟩, nofun⟩

/-! ### What a creator is handed -/

/-- A request hands on the object id of a record that it was handed out last. -/
def creating (label : StoreTask) : Prog.Protocol StoreCall StoreCall.Reply (List Lambda) where
  law q c := ∀ id ∈ c.handed? label, ∃ r ∈ q, r.oid = id
  next q c r := if c.looksUp then c.records r else q

theorem exec_records {c : LambdaCall} {r : c.Reply} {w w' : World} {started : List LambdaThread}
    (h : exec rt accountId i c w = some (.goes r w' started)) (hc : (StoreCall.lambda c).looksUp = true) :
    (handedOut w.db [] (.lambda c)).map Prod.snd = StoreCall.records (.lambda c) r := by
  cases c with
  | listLambdas region =>
    cases h
    exact handedOut_listLambdas w.db [] region
  | getLambdaById oid =>
    cases h
    exact map_keyed nofun
  | getLambdaByArn arn =>
    cases h
    refine map_keyed fun hnone => ?_
    rw [LambdaMemoryDb.getLambdaByArn, Option.map_eq_none_iff.mp hnone]
    exact ⟨_, rfl⟩
  | updateLambda lambda =>
    cases h
    refine map_keyed fun hnone => ?_
    rw [LambdaMemoryDb.updateLambda, Option.map_eq_none_iff.mp hnone]
    exact ⟨_, rfl⟩
  | _ => cases hc

/-- The records that a thread holds move as the protocol says. -/
theorem execStore_records (label : StoreTask) {c : StoreCall} {r : c.Reply} {started : List StoreThread}
    (h : execStore rt uuid accountId i c s = some (.goes r s' started)) :
    (s'.held i).map Prod.snd = (creating label).next ((s.held i).map Prod.snd) c r ∧
      ∀ j, j ≠ i → s'.held j = s.held j := by
  have hhanding : ∀ (c : StoreCall) (oid : Str) (w : World) (r : c.Reply),
      (c.looksUp = true → (handedOut s.db oid c).map Prod.snd = c.records r) →
      ((s.handing i c oid w).held i).map Prod.snd = (creating label).next ((s.held i).map Prod.snd) c r ∧
        ∀ j, j ≠ i → (s.handing i c oid w).held j = s.held j := by
    intro c oid w r hrecords
    by_cases hc : c.looksUp = true
    · have hheld : (s.handing i c oid w).held = Function.update s.held i (handedOut s.db oid c) := if_pos hc
      rw [hheld, Function.update_self, hrecords hc]
      exact ⟨(if_pos hc).symm, fun j hj => Function.update_of_ne hj _ _⟩
    · have hheld : (s.handing i c oid w).held = s.held := if_neg hc
      rw [hheld]
      exact ⟨(if_neg hc).symm, fun _ _ => rfl⟩
  cases c with
  | lambda c =>
    obtain ⟨turn, hturn, hgoes⟩ := Option.map_eq_some_iff.mp h
    cases turn with
    | waits => cases hgoes
    | goes r w started =>
      cases hgoes
      exact hhanding _ _ _ _ (exec_records hturn)
  | createLambda lambda =>
    cases h
    exact hhanding (.createLambda lambda) _ _ _ fun _ => map_keyed nofun
  | getLambdaByName region name =>
    cases h
    refine hhanding (.getLambdaByName region name) _ _ _ fun _ => map_keyed fun hnone => ?_
    rw [LambdaMemoryDb.getLambdaByName, Option.map_eq_none_iff.mp hnone]
    exact ⟨_, rfl⟩
  | _ =>
    cases h
    exact ⟨rfl, fun _ _ => rfl⟩

/-- No lookup by an object id. -/
def NoIdLookup : LambdaCall → Prop
  | .getLambdaById _ => False
  | _ => True

/-- A creator looks up one object id, first. -/
theorem only_created (functionCode instanceId : Str) (lambda : Lambda) :
    (do let lambda ← createInstance instanceId lambda functionCode
        let now ← call .now
        let _ ← tryCall (call (.updateLambda
          { lambda with lastStarted := now, state := .active, stateReason := str "Activated" })) :
      LambdaProg Unit).Only NoIdLookup := by
  have houtside : ∀ c, Outside c → NoIdLookup c := by
    intro c hc
    cases c <;> trivial
  exact Prog.only_bind ((only_createInstance instanceId functionCode lambda).mono houtside) fun lambda =>
    Prog.only_bind (Prog.only_perform trivial) fun now => Prog.only_bind (only_tryCall (Prog.only_perform trivial))
      fun _ => Prog.only_pure _

theorem only_dispatch (request : InvokeRequest) (lambda : Lambda) (instanceId : Str) :
    (dispatch request lambda instanceId).Only NoIdLookup := by
  have hrest : ∀ output, (do
      let now ← call .now
      let _ ← tryCall (call (.updateLambda { lambda with lastInvocation := now, state := .active }))
      return output : LambdaProg Str).Only NoIdLookup := fun output =>
    Prog.only_bind (Prog.only_perform trivial) fun now => Prog.only_bind (only_tryCall (Prog.only_perform trivial))
      fun _ => Prog.only_pure _
  unfold dispatch
  split
  · exact Prog.only_bind (Prog.only_bind (Prog.only_perform trivial) fun _ => Prog.only_bind
      (only_tryCall (Prog.only_perform trivial)) fun _ => Prog.only_pure _) hrest
  · exact Prog.only_bind (Prog.only_bind (Prog.only_perform trivial) fun _ => Prog.only_pure _) fun _ => hrest []

section Programs

variable {label : StoreTask} {q : List Lambda}

/-- The calls of the module under the protocol. -/
def creatingCalls (label : StoreTask) : Prog.Protocol LambdaCall LambdaCall.Reply (List Lambda) where
  law q c := (creating label).law q (.lambda c)
  next q c r := (creating label).next q (.lambda c) r

theorem creating_of_only {α : Type} {p : LambdaProg α} (hp : p.Only NoIdLookup) (q : List Lambda) :
    p.Complies (creatingCalls label) (fun _ _ => True) q :=
  hp.complies (fun c _ hc id hid => by cases c <;> first | cases hid | exact hc.elim) q

theorem creating_lift {α : Type} {Q : Except Error α → List Lambda → Prop} {p : LambdaProg α}
    (hp : p.Complies (creatingCalls label) Q q) : (lift p).Complies (creating label) Q q := by
  have hcall : ∀ c t, (creatingCalls label).law t c → (storeCall (.lambda c)).Complies (creating label)
      (fun x t' => ∃ r, x = .ok r ∧ t' = (creatingCalls label).next t c r) t := fun c t hlaw =>
    ⟨hlaw, fun r => ⟨r, rfl, rfl⟩⟩
  exact Prog.complies_via hcall hp

/-- The invocation hands the object id of the record that it has found by its ARN to the creator. -/
theorem creating_invokeLocked (request : InvokeRequest) :
    (invokeLocked accountId request).Complies (creatingCalls label) (fun _ _ => True) q := by
  refine Prog.complies_bind (Prog.complies_bind ⟨nofun, fun found => ?_⟩)
  rcases found with e | lambda
  · trivial
  · show (if findIdleInstance lambda = [] then _ else _ : LambdaProg Str).Complies _ _ [lambda]
    split
    · refine Prog.complies_perform_bind nofun fun instanceId => ?_
      have hcreator : (lambdaCreator lambda.code.zipFile lambda.oid instanceId).Complies (creatingCalls label)
          (fun _ _ => True) [lambda] := by
        refine Prog.complies_bind (Prog.complies_bind ⟨fun id hid => ?_, fun created => ?_⟩)
        · simp only [StoreCall.handed?] at hid
          split at hid <;> cases hid
          exact ⟨lambda, List.mem_singleton_self _, rfl⟩
        · rcases created with e | created
          · trivial
          · exact creating_of_only (only_created _ _ _) _
      have hrest : ∀ q, (do
          let lambda ← tryCall (call (.getLambdaByArn
            (createLambdaArn request.region accountId request.functionName)))
          dispatch request lambda instanceId : LambdaProg Str).Complies (creatingCalls label) (fun _ _ => True) q :=
        creating_of_only (Prog.only_bind (only_tryCall (Prog.only_perform trivial)) fun lambda =>
          only_dispatch request lambda instanceId)
      refine Prog.complies_bind (Prog.complies_bind (Prog.complies_attempt (hcreator.mono fun x q' _ => ?_)))
      rcases x with e | u
      · exact ⟨nofun, fun _ => hrest _⟩
      · exact hrest q'
    · exact creating_of_only (only_dispatch request lambda _) _

theorem creating_invoke (request : InvokeRequest) :
    (lift ((Task.invoke request).prog accountId)).Complies (creating label) (fun _ _ => True) q := by
  have hinvoke : ((Task.invoke request).prog accountId).Complies (creatingCalls label) (fun _ _ => True) q := by
    refine Prog.complies_bind (Prog.complies_perform_bind nofun fun _ => ?_)
    refine Prog.complies_bind (Prog.complies_attempt ((creating_invokeLocked request).mono fun x q' _ => ?_))
    refine Prog.complies_perform_bind nofun fun _ => ?_
    rcases x with e | output <;> trivial
  exact creating_lift hinvoke

theorem creating_createOrUpdateLambda (lambda : Lambda) : (createOrUpdateLambda lambda).Complies (creating label)
    (fun x q' => ∀ stored, x = .ok stored → q' = [stored]) q := by
  refine Prog.complies_perform_bind nofun fun found => ?_
  cases found with
  | false =>
    refine Prog.complies_perform_bind nofun fun created => ?_
    rcases created with e | created
    · exact nofun
    · rintro _ ⟨⟩
      rfl
  | true =>
    refine creating_lift (Prog.complies_perform_bind nofun fun updated => ?_)
    rcases updated with e | updated
    · exact nofun
    · rintro _ ⟨⟩
      rfl

theorem creating_functionEntity (request : CreateFunctionRequest) (lambdaArn : Str) :
    (functionEntity request lambdaArn).Complies (creating label) (fun _ _ => True) q := by
  refine Prog.complies_perform_bind nofun fun found => ?_
  cases found with
  | false => trivial
  | true =>
    refine Prog.complies_bind (creating_lift (Prog.complies_perform_bind nofun fun lambda => ?_))
    rcases lambda with e | lambda <;> trivial

/-- The creation hands on the object id of the record that it has stored. -/
theorem creating_createFunction (request : CreateFunctionRequest) :
    (createFunction accountId request).Complies (creating label) (fun _ _ => True) q := by
  refine Prog.complies_bind ((creating_functionEntity request _).mono fun entity q' _ => ?_)
  rcases entity with e | entity
  · trivial
  refine Prog.complies_bind ((creating_createOrUpdateLambda _).mono fun stored q' hstored => ?_)
  rcases stored with e | stored
  · trivial
  obtain rfl := hstored stored rfl
  refine Prog.complies_perform_bind nofun fun instanceId => Prog.complies_perform_bind ?_ fun _ => trivial
  rintro id ⟨⟩
  exact ⟨stored, List.mem_singleton_self _, rfl⟩

theorem creating_storeTask (task : StoreTask) (q : List Lambda) :
    (task.prog accountId).Complies (creating task) (fun _ _ => True) q := by
  cases task with
  | createFunction request => exact Prog.complies_bind ((creating_createFunction request).mono fun x q' _ => by
      rcases x with e | response <;> trivial)
  | listFunctions region => exact ⟨nofun, fun _ => trivial⟩
  | getFunction region name =>
    refine Prog.complies_bind (Prog.complies_perform_bind nofun fun lambda => ?_)
    rcases lambda with e | lambda <;> trivial
  | listTags arn =>
    refine Prog.complies_bind (Prog.complies_bind (creating_lift ⟨nofun, fun found => ?_⟩))
    cases found with
    | false => trivial
    | true =>
      refine Prog.complies_bind (creating_lift (Prog.complies_perform_bind nofun fun lambda => ?_))
      rcases lambda with e | lambda <;> trivial
  | deleteAllLambdas => exact ⟨nofun, fun _ => trivial⟩
  | ofRegion region task =>
    cases task with
    | invoke request => exact creating_invoke request
    | _ => exact creating_lift (Prog.complies_of_law (fun t c id hid => by cases c <;> cases hid) _ q)

end Programs

/-! ### Runs -/

/-- The object ids are right, and each thread hands on only what it holds. -/
structure PoolSound (x : StorePool) : Prop where
  store : StoreSound x.2
  complies : ∀ (i : Nat) (t : StoreThread), x.1[i]? = some t →
    t.prog.Complies (creating t.label) (fun _ _ => True) ((x.2.held i).map Prod.snd)

theorem poolSound_begin (accountId : Str) (tasks : List StoreTask) : PoolSound (beginStore accountId tasks) where
  store := ⟨nofun, nofun⟩
  complies i t ht := by
    obtain ⟨task, -, rfl⟩ := List.mem_map.mp (List.mem_of_getElem? ht)
    exact creating_storeTask task _

/-- The threads that a call starts are tasks. -/
theorem execStore_started {c : StoreCall} {r : c.Reply} {started : List StoreThread}
    (h : execStore rt uuid accountId i c s = some (.goes r s' started)) :
    ∀ t ∈ started, ∃ task, t = StoreTask.thread accountId task := by
  cases c with
  | lambda c =>
    obtain ⟨turn, hturn, hgoes⟩ := Option.map_eq_some_iff.mp h
    cases turn with
    | waits => cases hgoes
    | goes r w started =>
      cases hgoes
      intro t ht
      rcases exec_started hturn with rfl | ⟨containerId, host, port, payload, -, rfl⟩
      · cases ht
      · cases List.mem_singleton.mp ht
        exact ⟨.ofRegion [] (.executor containerId host port payload), rfl⟩
  | startCreator functionCode functionId instanceId =>
    cases h
    intro t ht
    exact ⟨_, List.mem_singleton.mp ht⟩
  | _ =>
    cases h
    exact nofun

theorem callOf_eq {x : StorePool} {label : StoreTask} {c : StoreCall} {k : c.Reply → StoreProg Unit}
    (hi : x.1[i]? = some ⟨label, .call c k⟩) : callOf x i = some (label, c) := by
  rw [callOf, hi]
  rfl

theorem PoolSound.step {x y : StorePool} (hx : PoolSound x) (hmindful : Mindful i x)
    (h : storeTurn rt uuid accountId i x = some y) : PoolSound y := by
  rcases Thread.turn_cases h with rfl | ⟨label, c, k, r, started, hi, hexec, hy⟩
  · exact hx
  obtain ⟨hrecords, hothers⟩ := execStore_records label hexec
  refine ⟨(execStore_sound hx.store (hmindful _ (callOf_eq hi)) hexec).1, fun j t ht => ?_⟩
  rw [hy] at ht
  rcases Thread.getElem?_moved ht with ⟨rfl, rfl⟩ | ⟨hne, ht⟩ | ⟨hstarted, -⟩
  · rw [hrecords]
    exact (hx.complies j _ hi).2 r
  · rw [hothers j hne]
    exact hx.complies j t ht
  · obtain ⟨task, rfl⟩ := execStore_started hexec t hstarted
    exact creating_storeTask task _

theorem exec_waits {c : LambdaCall} {w : World} (h : exec rt accountId i c w = some .waits) : c = .lock := by
  cases c with
  | lock => rfl
  | _ => cases h

/-- Only the lock makes a thread wait. -/
theorem execStore_waits {c : StoreCall} (h : execStore rt uuid accountId i c s = some .waits) : c = .lambda .lock := by
  cases c with
  | lambda c =>
    obtain ⟨turn, hturn, hgoes⟩ := Option.map_eq_some_iff.mp h
    cases turn with
    | waits => rw [exec_waits hturn]
    | goes r w started => cases hgoes
  | _ => cases h

theorem isOk_getLambdaById {oid : Str} (h : (db.lambdas.get? oid).isSome = true) :
    (db.getLambdaById oid).1.isOk = true := by
  obtain ⟨lambda, hget⟩ := Option.isSome_iff_exists.mp h
  rw [LambdaMemoryDb.getLambdaById, hget]
  rfl

theorem eq_of_deleted? {label : StoreTask} {c : StoreCall} {d : Str × Str} (h : c.deleted? label = some d) :
    c = .lambda (.deleteLambda d.2) := by
  unfold StoreCall.deleted? at h
  split at h
  · split at h <;> cases h
    rfl
  · cases h

/-- What a thread hands to a creator finds the function that it holds. -/
theorem PoolSound.creator {x : StorePool} (hx : PoolSound x) {label : StoreTask} {c : StoreCall}
    {k : c.Reply → StoreProg Unit} (hi : x.1[i]? = some ⟨label, .call c k⟩)
    (hmindful : MindfulCall label c (x.2.held i) x.2.db) :
    ∀ id ∈ c.handed? label, (x.2.db.getLambdaById id).1.isOk = true := by
  intro id hid
  obtain ⟨lambda, hlambda, rfl⟩ := (hx.complies i _ hi).1 id hid
  obtain ⟨copy, hcopy, rfl⟩ := List.mem_map.mp hlambda
  rw [hx.store.held i copy hcopy]
  exact isOk_getLambdaById (hmindful.creator (Option.isSome_iff_exists.mpr ⟨_, hid⟩) copy hcopy)

theorem execStore_deletion {label : StoreTask} {c : StoreCall} {r : c.Reply} {started : List StoreThread}
    (hmindful : MindfulCall label c (s.held i) s.db)
    (h : execStore rt uuid accountId i c s = some (.goes r s' started)) :
    ∀ d ∈ c.deleted? label, ∀ e ∈ s.db.lambdas.entries, e.2.region ≠ d.1 →
      s'.db.lambdas.get? e.1 = some e.2 := by
  intro d hd e he hne
  have hkept := get?_deleteLambda (hmindful.deletion d hd) he hne
  obtain rfl := eq_of_deleted? hd
  cases h
  exact hkept

/-- What a mindful step does. -/
theorem PoolSound.identifies {x : StorePool} (hx : PoolSound x) (hmindful : Mindful i x) :
    Identifies rt uuid accountId i x := by
  rintro ⟨label, c⟩ hcall y hturn
  obtain ⟨⟨_, prog⟩, hi, hnext⟩ := Option.bind_eq_some_iff.mp hcall
  obtain ⟨_, hnext, heq⟩ := Option.map_eq_some_iff.mp hnext
  cases heq
  cases prog with
  | ret a => cases hnext
  | throw e => cases hnext
  | call c k =>
    cases hnext
    have hc := hmindful _ hcall
    have hcreator := hx.creator hi hc
    simp only [Option.mem_def, Thread.turn, hi] at hturn
    obtain ⟨turn, hexec, hy⟩ := Option.map_eq_some_iff.mp hturn
    cases turn with
    | waits =>
      obtain rfl := execStore_waits hexec
      exact ⟨nofun, nofun, nofun⟩
    | goes r s' started =>
      cases hy
      exact ⟨(execStore_sound hx.store hc hexec).2, hcreator, execStore_deletion hc hexec⟩

/-- What a lookup by an ARN hands out is not found. -/
theorem not_resolves_getLambdaByArn {arn : Str} (hget : db.lambdas.get? arn = none)
    (h : (db.getLambdaByArn arn).1 = .ok lambda) : ¬ (db.getLambdaByArn arn).2.Resolves lambda := by
  unfold LambdaMemoryDb.getLambdaByArn at h ⊢
  split at h
  · cases h
  · next key stored hfound =>
    cases h
    have hne : arn ≠ key := by
      rintro rfl
      rw [(findLambda_eq_some hfound).1] at hget
      cases hget
    have hnone : (db.withOid key arn stored).lambdas.get? arn = none := by
      rw [LambdaMemoryDb.withOid, OrderedMap.get?_insert_of_ne _ _ hne, hget]
    intro hresolves
    rw [LambdaMemoryDb.Resolves, LambdaMemoryDb.getLambdaById, hnone] at hresolves
    cases hresolves

/-! ### Sample runs -/

def numberedUuid (n : Nat) : Str := toStr n

def createIn (region : String) : StoreTask := .createFunction { region := str region, functionName := str "f" }

end AwsMock.Lambda
