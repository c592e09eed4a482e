import Mathlib.Data.List.Infix
import Mathlib.Data.String.Basic

/-! Ids that are paths: a document store reads the segments between the slashes of an id, so two ids
can name one document. -/

namespace ChameleonVault.Collections

abbrev DocumentPath := List String

/-- A slash at either end adds no segment. -/
def pathSegments (id : String) : DocumentPath :=
  ((id.toList.splitOn '/').filter (· ≠ [])).map String.ofList

/-- Below a collection a document has an odd number of segments; empty ids and two slashes in a row
are refused. -/
def documentPath (id : String) : Option DocumentPath :=
  if id.toList = [] ∨ ['/', '/'] <:+: id.toList ∨ (pathSegments id).length % 2 = 0 then none
  else some (pathSegments id)

/-- If the id names a document, then the one that is at the id itself. -/
def IsProper (id : String) : Prop := ∀ path ∈ documentPath id, "/".intercalate path = id

instance (id : String) : Decidable (IsProper id) := inferInstanceAs (Decidable (∀ path ∈ documentPath id, _))

/-- The document is in the collection itself. -/
def isTopLevel (id : String) : Bool := (documentPath id).any fun path => path.length = 1

variable {id id' : String} {path : DocumentPath}

lemma IsProper.inj (h : IsProper id) (h' : IsProper id') (hp : documentPath id = some path)
    (hp' : documentPath id' = some path) : id = id' :=
  (h path hp).symm.trans (h' path hp')

lemma pathSegments_of_plain (hne : id ≠ "") (hs : '/' ∉ id.toList) : pathSegments id = [id] := by
  have hsplit : id.toList.splitOn '/' = [id.toList] := by
    rw [List.splitOn_eq_splitOnP]
    refine List.splitOnP_eq_singleton fun c hc => beq_eq_false_iff_ne.mpr ?_
    rintro rfl
    exact hs hc
  have hlist : id.toList ≠ [] := by simpa using hne
  simp [pathSegments, hsplit, hlist]

lemma documentPath_of_plain (hne : id ≠ "") (hs : '/' ∉ id.toList) : documentPath id = some [id] := by
  have hsegments := pathSegments_of_plain hne hs
  rw [documentPath, if_neg, hsegments]
  rintro (h | h | h)
  · exact hne (by simpa using h)
  · exact hs (h.subset List.mem_cons_self)
  · simp [hsegments] at h

lemma isTopLevel_of_plain (hne : id ≠ "") (hs : '/' ∉ id.toList) : isTopLevel id = true := by
  simp [isTopLevel, documentPath_of_plain hne hs]

example : documentPath "acme" = some ["acme"] ∧ documentPath "/acme" = some ["acme"] ∧ documentPath "acme/eu" = none ∧
    documentPath "acme/eu/west" = some ["acme", "eu", "west"] ∧ documentPath "acme//eu" = none := by decide +kernel

end ChameleonVault.Collections
