import ChameleonVault.Connectors.Contacts
import ChameleonVault.Deletion.Sources

/-! Wiping a user from a SaaS destination: one search, then a deletion for each record found. -/

namespace ChameleonVault.Connectors

open Collections Concurrency
open Deletion (WipeResult)
open KeyRegistry (truthy)

structure WipeReply extends WipeResult where
  destination : String
  deriving DecidableEq

structure Environment where
  salesforceApiKey : Option String := none
  salesforceUserIdField : Option String := none
  hubspotApiKey : Option String := none

def isRetryable : Option ℕ → Bool
  | some status => status = 429 ∨ 500 ≤ status ∧ status < 600
  | none => false

def notConfigured (destination : String) : WipeReply :=
  { success := false, destination, error := some "Configuration error" }

abbrev WipeCall := ContactCall WipeReply

def deleteEach (records : List String) : ContactCall (List Unit) := Call.each deleteContact records

def wipeFound (destination : String) (search : Search) (failure : HttpError → WipeReply) : WipeCall :=
  tryCatch (do
    let records ← searchContacts search
    let found := records.getD []
    if found = [] then
      return { success := true, destination, recordsFound := some 0 }
    let _ ← deleteEach found
    return { success := true, destination, recordsFound := some found.length })
    fun error => pure (failure error)

namespace SalesforceConnector

def name : String := "salesforce"

def userIdField (env : Environment) : String := (truthy env.salesforceUserIdField).getD "Chameleon_User_ID__c"

def queryFor (env : Environment) (userId : String) : Search :=
  .soql ("SELECT Id FROM Contact WHERE " ++ userIdField env ++ " = '" ++ userId ++ "' LIMIT 10")

def failure (error : HttpError) : WipeReply :=
  let serverError := error.status.filter (500 ≤ ·)
  if error.status = some 429 then
    { success := false, destination := name, error := some "Rate limited", retryable := some true }
  else if error.status = some 401 ∨ error.status = some 403 then
    { success := false, destination := name, error := some "Authentication failed", retryable := some false }
  else if let some status := serverError then
    { success := false, destination := name, error := some ("Server error (" ++ toString status ++ ")"),
      retryable := some true }
  else
    { success := false, destination := name, error := some ((truthy error.dataMessage).getD error.message),
      retryable := some (isRetryable error.status) }

def wipe (env : Environment) (userId _tenantId : String) : WipeCall :=
  match truthy env.salesforceApiKey with
  | none => pure (notConfigured name)
  | some _ => wipeFound name (queryFor env userId) failure

end SalesforceConnector

structure HubSpotConnector where
  apiToken : Option String := none

namespace HubSpotConnector

def name : String := "hubspot"

def searchFor (userId : String) : Search := .filter "chameleon_user_id" "EQ" userId

def failure (error : HttpError) : WipeReply :=
  { success := false, destination := name, error := some error.message, retryable := some (isRetryable error.status) }

def token (connector : HubSpotConnector) (env : Environment) : Option String :=
  truthy ((truthy connector.apiToken).orElse fun _ => env.hubspotApiKey)

def wipe (connector : HubSpotConnector) (env : Environment) (userId _tenantId : String) : WipeCall :=
  match connector.token env with
  | none => pure (notConfigured name)
  | some _ => wipeFound name (searchFor userId) failure

end HubSpotConnector

/-- A wipe that reports success has removed every contact of the user, and counted them. -/
def Complete (service : ContactService) (isUsers : Contact → Bool) (wipe : WipeCall) (store : ContactStore) : Prop :=
  ∀ reply store', Runs service.exec anyOutcome wipe.run store (.ok reply) store' → reply.success = true →
    (∀ contact ∈ store'.contacts, isUsers contact = false) ∧
      reply.recordsFound = some (store.idsOf isUsers).length

/-- The search is read as one for the contacts of the user, and they fit on one page. -/
def Finds (service : ContactService) (search : Search) (isUsers : Contact → Bool) (store : ContactStore) : Prop :=
  ∃ selected, service.selects search = some selected ∧
    (∀ contact ∈ store.contacts, selected contact = isUsers contact) ∧
    (store.idsOf isUsers).length ≤ service.pageSize search

variable {service : ContactService} {store : ContactStore} {search : Search} {destination : String}
  {failure : HttpError → WipeReply} {ids page : List String} {wanted selected : Contact → Bool}

lemma SalesforceConnector.failure_success (error : HttpError) : (SalesforceConnector.failure error).success = false := by
  unfold SalesforceConnector.failure
  dsimp only
  split_ifs
  · rfl
  · rfl
  · split <;> rfl

lemma must_deleteEach : MustCall service.exec anyOutcome (deleteEach ids) store
    (fun _ store' => store' = ids.foldl ContactStore.remove store) fun _ _ => True := by
  induction ids generalizing store with
  | nil => exact .pure rfl
  | cons id ids ih =>
    refine .bind (.perform ?_ fun _ _ _ _ _ => trivial)
    intro choice u store' _ he
    obtain rfl := delete_ok he
    exact .bind (ih.mono (fun us store' h => .pure h) fun _ _ _ => trivial)

lemma runs_deleteEach (service : ContactService) (hids : ids.Nodup) (hsub : ids ⊆ store.ids) :
    ∃ us, Runs service.exec anyOutcome (deleteEach ids).run store (.ok us) (ids.foldl ContactStore.remove store) := by
  induction ids generalizing store with
  | nil => exact ⟨[], rfl, rfl⟩
  | cons id ids ih =>
    obtain ⟨hid, hids⟩ := List.nodup_cons.mp hids
    obtain ⟨hstore, hsub⟩ := List.cons_subset.mp hsub
    have hleft : ids ⊆ (store.remove id).ids := by
      intro other hother
      exact mem_ids_remove (hsub hother) fun he => hid (he ▸ hother)
    obtain ⟨us, hr⟩ := ih hids hleft
    have hdelete : service.exec (.delete id) .deleted store = some (.ok (), store.remove id) := if_pos hstore
    exact ⟨() :: us, runs_bind_of (runs_perform trivial hdelete) (runs_bind_of hr ⟨rfl, rfl⟩)⟩

lemma gone_iff : (∀ contact ∈ (page.foldl ContactStore.remove store).contacts, wanted contact = false) ↔
    store.idsOf wanted ⊆ page := by
  constructor
  · intro hgone id hid
    obtain ⟨contact, hc, rfl⟩ := List.mem_map.mp hid
    obtain ⟨hc, hs⟩ := List.mem_filter.mp hc
    by_contra hn
    rw [hgone contact (mem_foldl_remove_iff.mpr ⟨hc, hn⟩)] at hs
    contradiction
  · intro hsub contact hc
    obtain ⟨hc, hn⟩ := mem_foldl_remove_iff.mp hc
    exact Bool.eq_false_iff.mpr fun hs => hn (hsub ((mem_idsOf hc).mpr hs))

lemma idsOf_congr (h : ∀ contact ∈ store.contacts, selected contact = wanted contact) :
    store.idsOf selected = store.idsOf wanted := by
  rw [ContactStore.idsOf, ContactStore.idsOf, List.filter_congr h]

/-- What is deleted is the one page that the search was answered with. -/
lemma wipeFound_complete (hf : ∀ error, (failure error).success = false)
    (h : service.selects search = none ∨ Finds service search wanted store) :
    Complete service wanted (wipeFound destination search failure) store := by
  let ok : WipeReply → ContactStore → Prop := fun reply store' => reply.success = true →
    (∀ contact ∈ store'.contacts, wanted contact = false) ∧
      reply.recordsFound = some (store.idsOf wanted).length
  have hcaught : ∀ (error : HttpError) (store' : ContactStore), MustCall service.exec anyOutcome
      (pure (failure error)) store' ok fun _ _ => True := by
    intro error store'
    exact .pure fun hs => absurd hs (by simp [hf error])
  have hmust : MustCall service.exec anyOutcome (wipeFound destination search failure) store ok fun _ _ => True := by
    refine .tryCatch (.bind (.perform ?_ fun _ error store' _ _ => hcaught error store'))
    intro choice records store' _ he
    obtain ⟨rfl, selected, hs, hpage⟩ := search_ok he
    rcases h with hrefused | ⟨selected', hs', hsame, hbound⟩
    · rw [hrefused] at hs
      cases hs
    obtain rfl := Option.some.inj (hs.symm.trans hs')
    rw [idsOf_congr hsame] at hpage
    have hgone := gone_iff.mpr (hpage.complete hbound)
    have hlength := congrArg some (hpage.length_eq hbound)
    dsimp only
    split
    · rename_i hnil
      rw [hnil] at hgone hlength
      exact .pure fun _ => ⟨hgone, hlength⟩
    · refine .bind (must_deleteEach.mono ?_ fun error store' _ => hcaught error store')
      rintro us _ rfl
      exact .pure fun _ => ⟨hgone, hlength⟩
  exact fun reply store' hr => hmust (.ok reply) store' hr

/-- Any page may be the answer, and all of its records may be deleted. -/
lemma runs_wipeFound (destination : String) (failure : HttpError → WipeReply) (hs : service.selects search = some selected)
    (hpage : IsPage (service.pageSize search) (store.idsOf selected) page) : ∃ reply, reply.success = true ∧
    reply.recordsFound = some page.length ∧ Runs service.exec anyOutcome (wipeFound destination search failure).run store
      (.ok reply) (page.foldl ContactStore.remove store) := by
  have hsearch := search_page hs hpage
  by_cases hnil : page = []
  · subst hnil
    refine ⟨{ success := true, destination, recordsFound := some 0 }, rfl, rfl, ?_⟩
    refine runs_tryCatch_of (runs_bind_of (runs_perform trivial hsearch) ?_)
    rw [if_pos (show (some []).getD [] = ([] : List String) from rfl)]
    exact ⟨rfl, rfl⟩
  · obtain ⟨us, hr⟩ := runs_deleteEach service hpage.1 (List.Subset.trans hpage.2.1 idsOf_subset_ids)
    refine ⟨{ success := true, destination, recordsFound := some page.length }, rfl, rfl, ?_⟩
    refine runs_tryCatch_of (runs_bind_of (runs_perform trivial hsearch) ?_)
    rw [if_neg (show (some page).getD [] ≠ [] from hnil)]
    exact runs_bind_of hr ⟨rfl, rfl⟩

/-- When every page that the search can be answered with is all there is of the user, the search
is one for the user's contacts. -/
lemma finds_of_pages (hs : service.selects search = some selected)
    (hall : ∀ page, IsPage (service.pageSize search) (store.idsOf selected) page →
      store.idsOf wanted ⊆ page ∧ page.length = (store.idsOf wanted).length) :
    Finds service search wanted store := by
  have hbound : (store.idsOf selected).length ≤ service.pageSize search := by
    by_contra hmore
    have hmore : service.pageSize search < (store.idsOf selected).length := Nat.lt_of_not_le hmore
    have hfirst := (hall _ (isPage_take idsOf_nodup)).2
    rw [List.length_take, Nat.min_eq_left (Nat.le_of_lt hmore)] at hfirst
    obtain ⟨id, hid⟩ := List.exists_mem_of_length_pos (hfirst ▸ service.pageSize_pos search)
    obtain ⟨page, hpage, hn⟩ := exists_page_without idsOf_nodup hmore id
    exact hn ((hall page hpage).1 hid)
  obtain ⟨hsub, hlength⟩ := hall _ (isPage_take idsOf_nodup)
  rw [List.take_of_length_le hbound] at hsub hlength
  have hperm : (store.idsOf wanted).Perm (store.idsOf selected) :=
    (idsOf_nodup.subperm hsub).perm_of_length_le (Nat.le_of_eq hlength)
  refine ⟨selected, hs, fun contact hc => ?_, hlength ▸ hbound⟩
  rw [Bool.eq_iff_iff, ← mem_idsOf hc, ← mem_idsOf hc]
  exact hperm.mem_iff.symm

lemma wipeFound_complete_iff (hf : ∀ error, (failure error).success = false) :
    Complete service wanted (wipeFound destination search failure) store ↔
      service.selects search = none ∨ Finds service search wanted store := by
  refine ⟨fun h => ?_, wipeFound_complete hf⟩
  cases hs : service.selects search with
  | none => exact .inl rfl
  | some selected =>
    refine .inr (finds_of_pages hs fun page hpage => ?_)
    obtain ⟨reply, hsuccess, hfound, hr⟩ := runs_wipeFound destination failure hs hpage
    obtain ⟨hgone, hcount⟩ := h reply _ hr hsuccess
    exact ⟨gone_iff.mp hgone, Option.some.inj (hfound.symm.trans hcount)⟩

lemma complete_notConfigured : Complete service wanted (pure (notConfigured destination)) store := by
  rintro reply store' ⟨hr, -⟩ hs
  obtain rfl := Except.ok.inj hr
  cases hs

namespace SalesforceConnector

/-- The user's contacts are those with the user id in the field for it. -/
def isUsers (service : ContactService) (env : Environment) (userId : String) : Contact → Bool :=
  service.holds (userIdField env) userId

lemma queryFor_eq (env : Environment) (userId : String) :
    queryFor env userId = .soql (equalityQuery (userIdField env) userId 10) := by
  have hlimit : "' LIMIT " ++ toString 10 = "' LIMIT 10" := rfl
  rw [queryFor]
  unfold equalityQuery
  generalize "SELECT Id FROM Contact WHERE " ++ userIdField env ++ " = '" ++ userId = query
  rw [← hlimit]
  exact congrArg Search.soql String.append_assoc.symm

def isPlain (env : Environment) (userId : String) : Bool := isFieldName (userIdField env) && isPlainValue userId

lemma finds_iff (hservice : Documented service) {env : Environment} {userId : String} (hplain : isPlain env userId = true) :
    service.selects (queryFor env userId) = none ∨ Finds service (queryFor env userId) (isUsers service env userId) store ↔
      service.selects (queryFor env userId) = none ∨ (store.idsOf (isUsers service env userId)).length ≤ 10 := by
  rw [isPlain, Bool.and_eq_true] at hplain
  rw [Finds, queryFor_eq, hservice.limit _ _ 10 hplain.1 hplain.2 (by decide) (by decide)]
  cases hs : service.selects (.soql (equalityQuery (userIdField env) userId 10)) with
  | none => simp
  | some selected =>
    obtain rfl := hservice.equality _ _ _ _ hplain.1 hplain.2 hs
    simp [isUsers]

end SalesforceConnector

namespace HubSpotConnector

def isUsers (service : ContactService) (userId : String) : Contact → Bool := service.holds "chameleon_user_id" userId

lemma finds_iff (hservice : Documented service) {userId : String} :
    service.selects (searchFor userId) = none ∨ Finds service (searchFor userId) (isUsers service userId) store ↔
      service.selects (searchFor userId) = none ∨
        (store.idsOf (isUsers service userId)).length ≤ service.pageSize (searchFor userId) := by
  rw [Finds]
  cases hs : service.selects (searchFor userId) with
  | none => simp
  | some selected =>
    obtain rfl := hservice.filter _ _ _ hs
    simp [isUsers]

end HubSpotConnector

theorem wipes_complete_iff {service : ContactService} (hservice : Documented service) (store : ContactStore)
    (connector : HubSpotConnector) (env : Environment) (userId tenantId : String) :
    (Complete service (SalesforceConnector.isUsers service env userId) (SalesforceConnector.wipe env userId tenantId) store ↔
      truthy env.salesforceApiKey = none ∨ service.selects (SalesforceConnector.queryFor env userId) = none ∨
        if SalesforceConnector.isPlain env userId then
          (store.idsOf (SalesforceConnector.isUsers service env userId)).length ≤ 10
        else Finds service (SalesforceConnector.queryFor env userId) (SalesforceConnector.isUsers service env userId) store) ∧
    (Complete service (HubSpotConnector.isUsers service userId) (connector.wipe env userId tenantId) store ↔
      connector.token env = none ∨ service.selects (HubSpotConnector.searchFor userId) = none ∨
        (store.idsOf (HubSpotConnector.isUsers service userId)).length ≤
          service.pageSize (HubSpotConnector.searchFor userId)) := by
  constructor
  · rw [SalesforceConnector.wipe]
    cases truthy env.salesforceApiKey with
    | none => exact ⟨fun _ => .inl rfl, fun _ => complete_notConfigured⟩
    | some apiKey =>
      simp only [reduceCtorEq, false_or]
      rw [wipeFound_complete_iff SalesforceConnector.failure_success]
      split
      · rename_i hplain
        exact SalesforceConnector.finds_iff hservice hplain
      · rfl
  · rw [HubSpotConnector.wipe]
    cases connector.token env with
    | none => exact ⟨fun _ => .inl rfl, fun _ => complete_notConfigured⟩
    | some token =>
      simp only [reduceCtorEq, false_or]
      rw [wipeFound_complete_iff fun error => rfl]
      exact HubSpotConnector.finds_iff hservice

section Examples

def selectLead : List Char := "SELECT Id FROM Contact WHERE ".toList

def equalsLead : List Char := [' ', '=', ' ', Sql.singleQuote]

def limitLead : List Char := [Sql.singleQuote, ' ', 'L', 'I', 'M', 'I', 'T', ' ']

def after (lead cs : List Char) : Option (List Char) := if cs.take lead.length = lead then some (cs.drop lead.length) else none

/-- The field, the value and the limit of a query for one value in one field. -/
def readQuery (q : String) : Option (String × String × ℕ) := do
  let query ← after selectLead q.toList
  let equation ← after equalsLead (query.dropWhile isFieldPart)
  let limit ← after limitLead (equation.dropWhile (· != Sql.singleQuote))
  return (String.ofList (query.takeWhile isFieldPart), String.ofList (equation.takeWhile (· != Sql.singleQuote)),
    Nat.ofDigitChars 10 limit 0)

lemma after_append (lead cs : List Char) : after lead (lead ++ cs) = some cs := by simp [after]

lemma toList_equalityQuery (field value : String) (limit : ℕ) : (equalityQuery field value limit).toList =
    selectLead ++ (field.toList ++ (equalsLead ++ (value.toList ++ (limitLead ++ Nat.toDigits 10 limit)))) := by
  have hequals : " = '".toList = equalsLead := by decide
  have hlimit : "' LIMIT ".toList = limitLead := by decide
  have hdigits : (toString limit).toList = Nat.toDigits 10 limit := by simp
  unfold equalityQuery
  simp only [String.toList_append, hequals, hlimit, hdigits, List.append_assoc]
  rfl

lemma readQuery_equalityQuery {field value : String} (limit : ℕ) (hfield : isFieldName field = true)
    (hvalue : isPlainValue value = true) : readQuery (equalityQuery field value limit) = some (field, value, limit) := by
  have hchars : ∀ c ∈ field.toList, isFieldPart c = true := List.all_eq_true.mp hfield
  have hplain : ∀ c ∈ value.toList, (c != Sql.singleQuote) = true := by
    intro c hc
    exact (Bool.and_eq_true_iff.mp (List.all_eq_true.mp hvalue c hc)).1
  have hequals (cs : List Char) : (equalsLead ++ cs).dropWhile isFieldPart = equalsLead ++ cs :=
    List.dropWhile_cons_of_neg (by decide)
  have hequals' (cs : List Char) : (equalsLead ++ cs).takeWhile isFieldPart = [] :=
    List.takeWhile_cons_of_neg (by decide)
  have hlimit (cs : List Char) : (limitLead ++ cs).dropWhile (· != Sql.singleQuote) = limitLead ++ cs :=
    List.dropWhile_cons_of_neg (by decide)
  have hlimit' (cs : List Char) : (limitLead ++ cs).takeWhile (· != Sql.singleQuote) = [] :=
    List.takeWhile_cons_of_neg (by decide)
  rw [readQuery, toList_equalityQuery]
  simp only [after_append, Option.bind_eq_bind, Option.bind_some, List.dropWhile_append_of_pos hchars,
    List.takeWhile_append_of_pos hchars, hequals, hequals', List.dropWhile_append_of_pos hplain,
    List.takeWhile_append_of_pos hplain, hlimit, hlimit', List.append_nil, String.ofList_toList,
    Nat.ofDigitChars_ten_toDigits]
  rfl

/-- Compares properties as they are, and answers as many records as are asked for, ten by default. -/
def plainService : ContactService where
  selects
    | .soql q => (readQuery q).map fun query contact => (query.1, query.2.1) ∈ contact.properties
    | .filter propertyName operator value =>
      if operator = "EQ" then some fun contact => (propertyName, value) ∈ contact.properties else none
  pageSize
    | .soql q => max 1 ((readQuery q).elim 10 fun query => query.2.2)
    | .filter _ _ _ => 10
  pageSize_pos
    | .soql _ => Nat.lt_of_lt_of_le Nat.one_pos (Nat.le_max_left _ _)
    | .filter _ _ _ => Nat.succ_pos 9
  same v w := v == w

lemma plainService_holds (field value : String) :
    plainService.holds field value = fun contact => decide ((field, value) ∈ contact.properties) := by
  funext contact
  rw [Bool.eq_iff_iff, decide_eq_true_eq]
  simp only [ContactService.holds, plainService, List.any_eq_true, Bool.and_eq_true, decide_eq_true_eq, beq_iff_eq]
  constructor
  · rintro ⟨property, hp, rfl, rfl⟩
    exact hp
  · exact fun hp => ⟨_, hp, rfl, rfl⟩

lemma plainService_documented : Documented plainService where
  equality field value limit selected hfield hvalue hs := by
    rw [plainService_holds]
    simp only [plainService, readQuery_equalityQuery limit hfield hvalue, Option.map_some, Option.some.injEq] at hs
    exact hs.symm
  limit field value limit hfield hvalue hpos _ := by
    simp only [plainService, readQuery_equalityQuery limit hfield hvalue, Option.elim_some]
    omega
  filter propertyName value selected hs := by
    rw [plainService_holds]
    simp only [plainService, if_true, Option.some.injEq] at hs
    exact hs.symm

def duplicates (ids : List String) (hids : ids.Nodup) : ContactStore where
  contacts := ids.map fun id => ⟨id, [("Chameleon_User_ID__c", "u1"), ("chameleon_user_id", "u1")]⟩
  ids_nodup := by simpa [Function.comp_def] using hids

def threeContacts : ContactStore := duplicates ["a", "b", "c"] (by decide)

def elevenContacts : ContactStore := duplicates ["a", "b", "c", "d", "e", "f", "g", "h", "i", "j", "k"] (by decide)

def firstTen : List String := ["a", "b", "c", "d", "e", "f", "g", "h", "i", "j"]

def fullPage : List ContactOutcome := .page (some firstTen) :: firstTen.map fun _ => .deleted

def configured : Environment := { salesforceApiKey := some "key", hubspotApiKey := some "token" }

theorem wipes_complete_three :
    Complete plainService (SalesforceConnector.isUsers plainService configured "u1")
      (SalesforceConnector.wipe configured "u1" "t1") threeContacts ∧
    Complete plainService (HubSpotConnector.isUsers plainService "u1") (HubSpotConnector.wipe {} configured "u1" "t1")
      threeContacts := by
  obtain ⟨hs, hh⟩ := wipes_complete_iff plainService_documented threeContacts {} configured "u1" "t1"
  have hplain : SalesforceConnector.isPlain configured "u1" = true := by decide +kernel
  rw [if_pos hplain] at hs
  exact ⟨hs.mpr (.inr (.inr (by decide +kernel))), hh.mpr (.inr (.inr (by decide +kernel)))⟩

instance (store : ContactStore) (op : ContactOp) (choice : ContactOutcome) : Decidable (anyOutcome store op choice) :=
  .isTrue trivial

/-- Ten contacts are deleted, success is reported, and the eleventh is still there. -/
theorem wipe_leaves_eleventh :
    (∃ reply store', Runs plainService.exec anyOutcome (SalesforceConnector.wipe configured "u1" "t1").run elevenContacts
      (.ok reply) store' ∧ reply.success = true ∧ reply.recordsFound = some 10 ∧ store'.ids = ["k"]) ∧
    ¬ Complete plainService (SalesforceConnector.isUsers plainService configured "u1")
      (SalesforceConnector.wipe configured "u1" "t1") elevenContacts ∧
    ¬ Complete plainService (HubSpotConnector.isUsers plainService "u1") (HubSpotConnector.wipe {} configured "u1" "t1")
      elevenContacts := by
  have hsales : Runs plainService.exec anyOutcome (SalesforceConnector.wipe configured "u1" "t1").run elevenContacts
      (.ok ⟨{ success := true, recordsFound := some 10 }, "salesforce"⟩) (firstTen.foldl .remove elevenContacts) :=
    runs_of_play (show play _ _ _ fullPage _ = some _ from rfl)
  have hhub : Runs plainService.exec anyOutcome (HubSpotConnector.wipe {} configured "u1" "t1").run elevenContacts
      (.ok ⟨{ success := true, recordsFound := some 10 }, "hubspot"⟩) (firstTen.foldl .remove elevenContacts) :=
    runs_of_play (show play _ _ _ fullPage _ = some _ from rfl)
  refine ⟨⟨_, _, hsales, rfl, rfl, by decide +kernel⟩, ?_, ?_⟩
  · intro h
    exact absurd (h _ _ hsales rfl).2 (by decide +kernel)
  · intro h
    exact absurd (h _ _ hhub rfl).2 (by decide +kernel)

end Examples

end ChameleonVault.Connectors
