import ChameleonVault.Collections.Pages
import ChameleonVault.Concurrency.Sequence
import ChameleonVault.Sql.Lexer

/-! A contact store outside, reached by searches and deletions over HTTP. -/

namespace ChameleonVault.Connectors

open Collections Concurrency

structure Contact where
  id : String
  properties : List (String × String)
  deriving DecidableEq

structure ContactStore where
  contacts : List Contact
  ids_nodup : (contacts.map Contact.id).Nodup

def ContactStore.ids (store : ContactStore) : List String := store.contacts.map Contact.id

def ContactStore.idsOf (store : ContactStore) (selected : Contact → Bool) : List String :=
  (store.contacts.filter selected).map Contact.id

def ContactStore.remove (store : ContactStore) (id : String) : ContactStore where
  contacts := store.contacts.filter fun contact => contact.id ≠ id
  ids_nodup := store.ids_nodup.sublist (List.filter_sublist.map Contact.id)

inductive Search where
  | soql (q : String)
  | filter (propertyName operator value : String)
  deriving DecidableEq

structure HttpError where
  message : String
  status : Option ℕ := none
  dataMessage : Option String := none

inductive ContactOp where
  | search (search : Search)
  | delete (id : String)

/-- A search may leave out the list when it has found nothing. -/
def ContactOp.Res : ContactOp → Type
  | .search _ => Option (List String)
  | .delete _ => Unit

inductive ContactOutcome where
  | page (records : Option (List String))
  | deleted
  | failed (error : HttpError)

/-- Which contacts a search matches, where the service accepts it, how many of them one answer lists
at most, and which values of a property the service takes for the same. -/
structure ContactService where
  selects : Search → Option (Contact → Bool)
  pageSize : Search → ℕ
  pageSize_pos : ∀ search, 0 < pageSize search
  same : String → String → Bool

namespace ContactService

variable (service : ContactService)

def holds (field value : String) (contact : Contact) : Bool :=
  contact.properties.any fun property => property.1 = field && service.same property.2 value

def exec : (op : ContactOp) → ContactOutcome → ContactStore → Option (Except HttpError op.Res × ContactStore)
  | .search search, .page records, store =>
    match service.selects search with
    | some selected =>
      if IsPage (service.pageSize search) (store.idsOf selected) (records.getD []) then some (.ok records, store) else none
    | none => none
  | .delete id, .deleted, store => if id ∈ store.ids then some (.ok (), store.remove id) else none
  | .search _, .failed error, store => some (.error error, store)
  | .delete _, .failed error, store => some (.error error, store)
  | _, _, _ => none

end ContactService

section Documented

/-- The query for the contacts with one value in one field. -/
def equalityQuery (field value : String) (limit : ℕ) : String :=
  "SELECT Id FROM Contact WHERE " ++ field ++ " = '" ++ value ++ "' LIMIT " ++ toString limit

def isFieldPart (c : Char) : Bool := Sql.isWordPart c || c == '.'

def isFieldName (field : String) : Bool := field.toList.all isFieldPart

/-- A quote ends a value, and a backslash begins an escape. -/
def isPlainValue (value : String) : Bool := value.toList.all fun c => c != Sql.singleQuote && c != Sql.backslash

/-- What the two services promise of the searches they accept. A value stands for itself where it
needs no escape, and a limit is met where it is no more than a batch. -/
structure Documented (service : ContactService) : Prop where
  equality (field value : String) (limit : ℕ) (selected : Contact → Bool) : isFieldName field = true →
    isPlainValue value = true → service.selects (.soql (equalityQuery field value limit)) = some selected →
    selected = service.holds field value
  limit (field value : String) (limit : ℕ) : isFieldName field = true → isPlainValue value = true → 0 < limit →
    limit ≤ 200 → service.pageSize (.soql (equalityQuery field value limit)) = limit
  filter (propertyName value : String) (selected : Contact → Bool) :
    service.selects (.filter propertyName "EQ" value) = some selected → selected = service.holds propertyName value

end Documented

def anyOutcome (_store : ContactStore) (_op : ContactOp) (_choice : ContactOutcome) : Prop := True

abbrev ContactCall := Call ContactOp ContactOp.Res HttpError

def searchContacts (search : Search) : ContactCall (Option (List String)) := perform (ContactOp.search search)

def deleteContact (id : String) : ContactCall Unit := perform (ContactOp.delete id)

variable {service : ContactService} {store store' : ContactStore} {search : Search} {id : String} {ids : List String}
  {contact : Contact} {selected : Contact → Bool}

lemma idsOf_nodup : (store.idsOf selected).Nodup :=
  store.ids_nodup.sublist (List.filter_sublist.map Contact.id)

lemma idsOf_subset_ids : store.idsOf selected ⊆ store.ids :=
  List.map_subset Contact.id (List.filter_subset_self _)

lemma mem_idsOf (hc : contact ∈ store.contacts) : contact.id ∈ store.idsOf selected ↔ selected contact = true := by
  constructor
  · intro h
    obtain ⟨other, hother, hid⟩ := List.mem_map.mp h
    obtain ⟨hother, hs⟩ := List.mem_filter.mp hother
    rwa [List.inj_on_of_nodup_map store.ids_nodup hother hc hid] at hs
  · exact fun hs => List.mem_map_of_mem (List.mem_filter.mpr ⟨hc, hs⟩)

lemma mem_remove_iff : contact ∈ (store.remove id).contacts ↔ contact ∈ store.contacts ∧ contact.id ≠ id := by
  simp [ContactStore.remove]

lemma mem_ids_remove (hid : id ∈ store.ids) {other : String} (hne : id ≠ other) : id ∈ (store.remove other).ids := by
  obtain ⟨contact, hc, rfl⟩ := List.mem_map.mp hid
  exact List.mem_map_of_mem (mem_remove_iff.mpr ⟨hc, hne⟩)

lemma mem_foldl_remove_iff : contact ∈ (ids.foldl ContactStore.remove store).contacts ↔
    contact ∈ store.contacts ∧ contact.id ∉ ids := by
  induction ids generalizing store with
  | nil => simp
  | cons id ids ih => rw [List.foldl_cons, ih, mem_remove_iff, List.mem_cons, not_or, and_assoc]

lemma search_ok {choice : ContactOutcome} {records : Option (List String)}
    (h : service.exec (.search search) choice store = some (.ok records, store')) : store' = store ∧
      ∃ selected, service.selects search = some selected ∧
        IsPage (service.pageSize search) (store.idsOf selected) (records.getD []) := by
  cases choice with
  | page records' =>
    simp only [ContactService.exec] at h
    split at h
    · rename_i selected hs
      simp only [Option.ite_none_right_eq_some] at h
      obtain ⟨hpage, h⟩ := h
      obtain ⟨hr, rfl⟩ := Prod.mk.inj (Option.some.inj h)
      exact ⟨rfl, selected, hs, Except.ok.inj hr ▸ hpage⟩
    · cases h
  | deleted => cases h
  | failed error => cases h

lemma search_page {page : List String} (hs : service.selects search = some selected)
    (hpage : IsPage (service.pageSize search) (store.idsOf selected) page) :
    service.exec (.search search) (.page (some page)) store = some (.ok (some page), store) := by
  simp only [ContactService.exec, hs]
  exact if_pos hpage

lemma delete_ok {choice : ContactOutcome} {u : Unit}
    (h : service.exec (.delete id) choice store = some (.ok u, store')) : store' = store.remove id := by
  cases choice with
  | page records => cases h
  | deleted =>
    simp only [ContactService.exec, Option.ite_none_right_eq_some] at h
    exact (Prod.mk.inj (Option.some.inj h.2)).2.symm
  | failed error => cases h

end ChameleonVault.Connectors
