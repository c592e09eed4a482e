import ChameleonVault.Sql.Queries
import ChameleonVault.Sql.Clauses

/-! Queries that keep the latest row of each part of a table, and what a deletion from the table leaves of them. -/

namespace ChameleonVault.Sql

section Latest

variable {ρ κ γ μ : Type} [DecidableEq κ] [DecidableEq γ] [LinearOrder μ] {key : ρ → κ} {moment : ρ → μ}
  {rows answer : List ρ} {r : ρ}

/-- One row of each part, a latest one; rows of the same time come in any order. -/
structure LatestOfEach (key : ρ → κ) (moment : ρ → μ) (rows answer : List ρ) : Prop where
  nodup : (answer.map key).Nodup
  mem : ∀ r ∈ answer, r ∈ rows
  covers : ∀ r ∈ rows, ∃ shown ∈ answer, key shown = key r
  latest : ∀ shown ∈ answer, ∀ r ∈ rows, key r = key shown → moment r ≤ moment shown

variable (key moment rows) in
lemma exists_latestOfEach : ∃ answer, LatestOfEach key moment rows answer := by
  have hgreatest (k : κ) (hk : k ∈ rows.map key) :
      ∃ shown ∈ rows, key shown = k ∧ ∀ r ∈ rows, key r = k → moment r ≤ moment shown := by
    obtain ⟨r, hr, hrk⟩ := List.mem_map.mp hk
    have hne : rows.filter (key · = k) ≠ [] := List.ne_nil_of_mem (List.mem_filter.mpr ⟨hr, decide_eq_true hrk⟩)
    obtain ⟨m, hm⟩ := Option.ne_none_iff_exists'.mp (mt (List.argmax_eq_none (f := moment)).mp hne)
    obtain ⟨hmem, hkey⟩ := List.mem_filter.mp (List.argmax_mem hm)
    exact ⟨m, hmem, of_decide_eq_true hkey, fun r' hr' hk' =>
      List.le_of_mem_argmax (List.mem_filter.mpr ⟨hr', decide_eq_true hk'⟩) hm⟩
  have hshow (k : {k // k ∈ (rows.map key).dedup}) :
      ∃ shown ∈ rows, key shown = k ∧ ∀ r ∈ rows, key r = k → moment r ≤ moment shown :=
    hgreatest k (List.mem_dedup.mp k.2)
  choose shown hmem hkey hlatest using hshow
  have hkeys : ((rows.map key).dedup.attach.map shown).map key = (rows.map key).dedup := by
    rw [List.map_map]
    exact (List.map_congr_left fun k _ => hkey k).trans (List.attach_map_subtype_val _)
  refine ⟨(rows.map key).dedup.attach.map shown, ?_, ?_, fun r hr => ?_, ?_⟩
  · rw [hkeys]
    exact List.nodup_dedup _
  · rintro _ hr
    obtain ⟨k, -, rfl⟩ := List.mem_map.mp hr
    exact hmem k
  · have hk : key r ∈ (rows.map key).dedup := List.mem_dedup.mpr (List.mem_map_of_mem hr)
    exact ⟨shown ⟨key r, hk⟩, List.mem_map_of_mem (List.mem_attach _ _), hkey ⟨key r, hk⟩⟩
  · rintro _ hshown r hr hrk
    obtain ⟨k, -, rfl⟩ := List.mem_map.mp hshown
    exact hlatest k r hr (hrk.trans (hkey k))

omit [DecidableEq κ] in
lemma LatestOfEach.eq_of_key (h : LatestOfEach key moment rows answer) {first second : ρ} (hfirst : first ∈ answer)
    (hsecond : second ∈ answer) (hkey : key first = key second) : first = second :=
  List.inj_on_of_nodup_map h.nodup hfirst hsecond hkey

lemma LatestOfEach.filter_key (h : LatestOfEach key moment rows answer) (hr : r ∈ rows) :
    ∃ shown, answer.filter (key · = key r) = [shown] ∧ shown ∈ rows ∧ key shown = key r ∧
      ∀ r' ∈ rows, key r' = key r → moment r' ≤ moment shown := by
  obtain ⟨shown, hshown, hkey⟩ := h.covers r hr
  refine ⟨shown, ?_, h.mem shown hshown, hkey, fun r' hr' hk => h.latest shown hshown r' hr' (hk.trans hkey.symm)⟩
  have hnodup : (answer.filter (key · = key r)).Nodup := (List.Nodup.of_map key h.nodup).filter _
  refine List.perm_singleton.mp ((List.perm_ext_iff_of_nodup hnodup (List.nodup_singleton shown)).mpr fun other => ?_)
  rw [List.mem_filter, List.mem_singleton, decide_eq_true_iff]
  constructor
  · rintro ⟨hother, hk⟩
    exact h.eq_of_key hother hshown (hk.trans hkey.symm)
  · rintro rfl
    exact ⟨hshown, hkey⟩

/-- Taking whole parts out of the table takes them out of the answer, and nothing else. -/
lemma latestOfEach_filter_iff {keep : ρ → Bool}
    (hkeep : ∀ r ∈ rows, ∀ r' ∈ rows, key r = key r' → keep r = keep r') :
    LatestOfEach key moment (rows.filter keep) answer ↔
      ∃ before, LatestOfEach key moment rows before ∧ answer = before.filter keep := by
  constructor
  · intro h
    obtain ⟨others, hothers⟩ := exists_latestOfEach key moment (rows.filter (!keep ·))
    have hkept : ∀ r ∈ answer, r ∈ rows ∧ keep r = true := fun r hr => List.mem_filter.mp (h.mem r hr)
    have hleft : ∀ r ∈ others, r ∈ rows ∧ keep r = false := fun r hr => by
      simpa using hothers.mem r hr
    refine ⟨answer ++ others, ⟨?_, ?_, ?_, ?_⟩, ?_⟩
    · rw [List.map_append, List.nodup_append]
      refine ⟨h.nodup, hothers.nodup, ?_⟩
      rintro _ hfirst _ hsecond rfl
      obtain ⟨r, hr, hrk⟩ := List.mem_map.mp hfirst
      obtain ⟨r', hr', hrk'⟩ := List.mem_map.mp hsecond
      have hsame := hkeep r (hkept r hr).1 r' (hleft r' hr').1 (hrk.trans hrk'.symm)
      rw [(hkept r hr).2, (hleft r' hr').2] at hsame
      contradiction
    · intro r hr
      rcases List.mem_append.mp hr with hr | hr
      · exact (hkept r hr).1
      · exact (hleft r hr).1
    · intro r hr
      cases hk : keep r with
      | true =>
        obtain ⟨shown, hshown, hkey⟩ := h.covers r (List.mem_filter.mpr ⟨hr, hk⟩)
        exact ⟨shown, List.mem_append_left others hshown, hkey⟩
      | false =>
        obtain ⟨shown, hshown, hkey⟩ := hothers.covers r (List.mem_filter.mpr ⟨hr, by rw [hk]; rfl⟩)
        exact ⟨shown, List.mem_append_right answer hshown, hkey⟩
    · intro shown hshown r hr hkey
      rcases List.mem_append.mp hshown with hshown | hshown
      · have hk := (hkeep r hr shown (hkept shown hshown).1 hkey).trans (hkept shown hshown).2
        exact h.latest shown hshown r (List.mem_filter.mpr ⟨hr, hk⟩) hkey
      · have hk := (hkeep r hr shown (hleft shown hshown).1 hkey).trans (hleft shown hshown).2
        exact hothers.latest shown hshown r (List.mem_filter.mpr ⟨hr, by rw [hk]; rfl⟩) hkey
    · have hall : answer.filter keep = answer := List.filter_eq_self.mpr fun r hr => (hkept r hr).2
      have hnone : others.filter keep = [] := List.filter_eq_nil_iff.mpr fun r hr => by simp [(hleft r hr).2]
      rw [List.filter_append, hall, hnone, List.append_nil]
  · rintro ⟨before, h, rfl⟩
    refine ⟨h.nodup.sublist (List.filter_sublist.map key), fun r hr => ?_, fun r hr => ?_, fun shown hshown r hr => ?_⟩
    · obtain ⟨hr, hk⟩ := List.mem_filter.mp hr
      exact List.mem_filter.mpr ⟨h.mem r hr, hk⟩
    · obtain ⟨hr, hk⟩ := List.mem_filter.mp hr
      obtain ⟨shown, hshown, hkey⟩ := h.covers r hr
      exact ⟨shown, List.mem_filter.mpr ⟨hshown, (hkeep shown (h.mem shown hshown) r hr hkey).trans hk⟩, hkey⟩
    · exact h.latest shown (List.mem_filter.mp hshown).1 r (List.mem_filter.mp hr).1

/-- Finer parts each show their latest row exactly when the parts are no finer than the query's. -/
lemma latest_of_finer_iff {part : ρ → γ} (hfiner : ∀ r ∈ rows, ∀ r' ∈ rows, part r = part r' → key r = key r') :
    (∀ answer, LatestOfEach key moment rows answer → ∀ r ∈ rows, ∃ shown, answer.filter (part · = part r) = [shown] ∧
        ∀ r' ∈ rows, part r' = part r → moment r' ≤ moment shown) ↔
      ∀ r ∈ rows, ∀ r' ∈ rows, key r = key r' → part r = part r' := by
  constructor
  · intro heach r hr r' hr' hkey
    obtain ⟨answer, h⟩ := exists_latestOfEach key moment rows
    have hshown (r : ρ) (hr : r ∈ rows) : ∃ shown ∈ answer, part shown = part r := by
      obtain ⟨shown, hfilter, -⟩ := heach answer h r hr
      have hm : shown ∈ answer.filter (part · = part r) := hfilter ▸ List.mem_singleton_self shown
      exact ⟨shown, (List.mem_filter.mp hm).1, of_decide_eq_true (List.mem_filter.mp hm).2⟩
    obtain ⟨first, hfirst, hpart⟩ := hshown r hr
    obtain ⟨second, hsecond, hpart'⟩ := hshown r' hr'
    have hsame : key first = key second := ((hfiner first (h.mem first hfirst) r hr hpart).trans hkey).trans
      (hfiner second (h.mem second hsecond) r' hr' hpart').symm
    rw [← hpart, ← hpart', h.eq_of_key hfirst hsecond hsame]
  · intro hcoarse answer h r hr
    have hiff (r' : ρ) (hr' : r' ∈ rows) : part r' = part r ↔ key r' = key r :=
      ⟨hfiner r' hr' r hr, hcoarse r' hr' r hr⟩
    obtain ⟨shown, hfilter, -, -, hlatest⟩ := h.filter_key hr
    refine ⟨shown, ?_, fun r' hr' hpart => hlatest r' hr' ((hiff r' hr').mp hpart)⟩
    rw [← hfilter]
    exact List.filter_congr fun r' hr' => decide_eq_decide.mpr (hiff r' (h.mem r' hr'))

end Latest

section Windows

structure Windowed where
  table : String
  partitionBy : String
  orderBy : String

def Windowed.tokens (q : Windowed) : List Token :=
  [.keyword "SELECT", .symbol '*', .keyword "FROM", .quoted q.table, .keyword "QUALIFY", .identifier "ROW_NUMBER",
    .symbol '(', .symbol ')', .keyword "OVER", .symbol '(', .keyword "PARTITION", .keyword "BY",
    .identifier q.partitionBy, .keyword "ORDER", .keyword "BY", .identifier q.orderBy, .keyword "DESC", .symbol ')',
    .symbol '=', .number "1"]

variable {ρ : Type} (table : Table ρ)

def Windowed.Answers (q : Windowed) (answer : List ρ) : Prop :=
  LatestOfEach (table.read · q.partitionBy) (fun r => (table.read r q.orderBy).moment) table.rows answer

/-- The row is one that equalities with the parameters hold of; nothing equals null. -/
def Table.satisfies (parameters : String → Value) (conjuncts : List (String × String)) (r : ρ) : Bool :=
  conjuncts.all fun c => table.read r c.1 ≠ .null && table.read r c.1 = parameters c.2

def Table.delete (parameters : String → Value) (conjuncts : List (String × String)) : Table ρ :=
  { table with rows := table.rows.filter fun r => !table.satisfies parameters conjuncts r }

lemma statement_deleteText_of_unreserved {name : String} {conjuncts : List (String × String)} (h : Worded conjuncts)
    (hne : name ≠ "") (hverbatim : Verbatim name.toList) (hunreserved : ∀ c ∈ conjuncts, isReserved c.1 = false) :
    statement (deleteText name conjuncts) = some (.delete name (conjuncts.map equality)) :=
  statement_deleteText.mpr ⟨_, conjunction conjuncts, lexFrom_table hne hverbatim (lexFrom_where h), parsePath_quoted,
    parseConjuncts_unreserved h.ne_nil hunreserved⟩

end Windows

end ChameleonVault.Sql
