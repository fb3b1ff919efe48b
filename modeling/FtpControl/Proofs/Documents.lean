import FtpControl.Toml.Document

/-!
This module contains the theory of keys in documents: whatever the lines of a text say, no table of
the document that they build has a key twice, at any depth.
-/

namespace FtpControl.Toml

inductive Value.Keyed : Value → Prop where
  | string (s : String) : Keyed (.string s)
  | integer (n : Int) : Keyed (.integer n)
  | float (x : Binary64) : Keyed (.float x)
  | boolean (b : Bool) : Keyed (.boolean b)
  | datetime (text : String) : Keyed (.datetime text)
  | array (grows : Bool) {items : List Value} (hitems : ∀ v ∈ items, Keyed v)
    : Keyed (.array grows items)
  | table (origin : Origin) {entries : List (String × Value)}
    (hnodup : (entries.map Prod.fst).Nodup) (hvalues : ∀ entry ∈ entries, Keyed entry.2)
    : Keyed (.table origin entries)

namespace Value.Keyed

theorem items {grows : Bool} {items : List Value} (h : (Value.array grows items).Keyed)
    : ∀ item ∈ items, item.Keyed := by
  cases h with
  | array _ hitems => exact hitems

theorem append {items : List Value} {v : Value} (grows : Bool)
    (hitems : ∀ item ∈ items, item.Keyed) (hv : v.Keyed)
    : (Value.array grows (items ++ [v])).Keyed := by
  apply array
  intro item hitem
  rw [List.mem_append, List.mem_singleton] at hitem
  obtain hitem | rfl := hitem
  . exact hitems item hitem
  . exact hv

end Value.Keyed

namespace Table

structure Keyed (t : Table) : Prop where
  nodup : (t.map Prod.fst).Nodup
  values : ∀ entry ∈ t, entry.2.Keyed

namespace Keyed

variable {t t' : Table} {key : String} {v : Value}

theorem nil : Keyed [] := by
  constructor
  . exact List.nodup_nil
  . intro entry hentry
    contradiction

theorem value (ht : t.Keyed) (origin : Origin) : (Value.table origin t).Keyed :=
  .table origin ht.nodup ht.values

theorem of_value {origin : Origin} (h : (Value.table origin t).Keyed) : t.Keyed := by
  cases h with
  | table _ hnodup hvalues => exact ⟨hnodup, hvalues⟩

theorem lookup (ht : t.Keyed) (h : List.lookup key t = some v) : v.Keyed := by
  obtain ⟨before, behind, rfl, _⟩ := List.lookup_eq_some_iff.1 h
  apply ht.values (key, v)
  simp

theorem add? (ht : t.Keyed) (hv : v.Keyed) (h : t.add? key v = some t') : t'.Keyed := by
  unfold Table.add? at h
  split at h
  . contradiction
  . next hnew =>
    cases h
    rw [List.lookup_eq_none_iff] at hnew
    constructor
    . rw [List.map_append, List.nodup_append]
      refine ⟨ht.nodup, by simp, ?_⟩
      intro other hother last hlast
      obtain ⟨entry, hentry, rfl⟩ := List.mem_map.1 hother
      obtain rfl := List.mem_singleton.1 hlast
      exact (bne_iff_ne.1 (hnew entry hentry)).symm
    . intro entry hentry
      rw [List.mem_append, List.mem_singleton] at hentry
      obtain hentry | rfl := hentry
      . exact ht.values entry hentry
      . exact hv

theorem union? {new : Table} (ht : t.Keyed) (hnew : new.Keyed) (h : t.union? new = some t')
    : t'.Keyed := by
  have hvalues := hnew.values
  clear hnew
  induction new generalizing t with
  | nil =>
    cases h
    exact ht
  | cons entry new ih =>
    unfold Table.union? at h ih
    rw [List.foldlM_cons, Option.bind_eq_bind, Option.bind_eq_some_iff] at h
    obtain ⟨next, hadd, h⟩ := h
    have hnext := ht.add? (hvalues entry List.mem_cons_self) hadd
    apply ih hnext h
    intro other hother
    exact hvalues other (List.mem_cons_of_mem _ hother)

theorem replace (ht : t.Keyed) (hv : v.Keyed) (key : String) : (t.replace key v).Keyed := by
  constructor
  . have hkeys : (t.replace key v).map Prod.fst = t.map Prod.fst := by
      unfold Table.replace
      rw [List.map_map]
      apply List.map_congr_left
      intro entry _
      dsimp only [Function.comp]
      split
      . next heq => exact heq.symm
      . rfl
    rw [hkeys]
    exact ht.nodup
  . intro entry hentry
    obtain ⟨old, hold, rfl⟩ := List.mem_map.1 hentry
    split
    . exact hv
    . exact ht.values old hold

end Keyed

end Table

theorem Value.keyed_of_date? {text : String} {v : Value} (h : Value.date? text = some v)
    : v.Keyed := by
  unfold Value.date? at h
  obtain ⟨date, _, rfl⟩ := Option.map_eq_some_iff.1 h
  constructor

theorem Table.keyed_of_date? {t : Table} {v : Value} (h : t.date? = some v) : v.Keyed := by
  unfold Table.date? at h
  split at h
  . exact Value.keyed_of_date? h
  . contradiction

mutual

/-- The written tables may name a key twice; what they mean does not. -/
theorem Value.keyed_of_meaning? {v w : Value} (h : v.meaning? = some w) : w.Keyed := by
  match v with
  | .string s | .integer n | .float x | .boolean b =>
    rw [Value.meaning?.eq_def] at h
    cases h
    constructor
  | .datetime text =>
    rw [Value.meaning?] at h
    exact Value.keyed_of_date? h
  | .array grows items =>
    rw [Value.meaning?, Option.bind_eq_bind, Option.bind_eq_some_iff] at h
    obtain ⟨meanings, hmeanings, h⟩ := h
    cases h
    exact .array grows (Value.keyed_of_meanings? hmeanings)
  | .table origin entries =>
    rw [Value.meaning?] at h
    split at h
    . exact Table.keyed_of_date? h
    . rw [Option.bind_eq_bind, Option.bind_eq_some_iff] at h
      obtain ⟨t, ht, h⟩ := h
      cases h
      exact (Table.keyed_of_meaning? ht).value origin

theorem Value.keyed_of_meanings? {vs ws : List Value} (h : Value.meanings? vs = some ws)
    : ∀ w ∈ ws, w.Keyed := by
  match vs with
  | [] =>
    rw [Value.meanings?] at h
    cases h
    intro w hw
    contradiction
  | v :: vs =>
    simp only [Value.meanings?, Option.bind_eq_bind, Option.bind_eq_some_iff] at h
    obtain ⟨meaning, hmeaning, meanings, hmeanings, h⟩ := h
    cases h
    intro w hw
    obtain rfl | hw := List.mem_cons.1 hw
    . exact Value.keyed_of_meaning? hmeaning
    . exact Value.keyed_of_meanings? hmeanings w hw

theorem Table.keyed_of_meaning? {entries : List (String × Value)} {t : Table}
    (h : Table.meaning? entries = some t) : t.Keyed := by
  match entries with
  | [] =>
    rw [Table.meaning?] at h
    cases h
    exact .nil
  | (key, v) :: rest =>
    simp only [Table.meaning?, Option.bind_eq_bind, Option.bind_eq_some_iff] at h
    obtain ⟨meaning, hmeaning, behind, hbehind, h⟩ := h
    split at h
    . contradiction
    . next hnew =>
      cases h
      have hkeyed := Table.keyed_of_meaning? hbehind
      rw [Bool.not_eq_true, Option.isSome_eq_false_iff, Option.isNone_iff_eq_none,
        List.lookup_eq_none_iff] at hnew
      constructor
      . rw [List.map_cons, List.nodup_cons]
        refine ⟨?_, hkeyed.nodup⟩
        intro hmem
        obtain ⟨entry, hentry, rfl⟩ := List.mem_map.1 hmem
        exact absurd rfl (bne_iff_ne.1 (hnew entry hentry))
      . intro entry hentry
        obtain rfl | hentry := List.mem_cons.1 hentry
        . exact Value.keyed_of_meaning? hmeaning
        . exact hkeyed.values entry hentry

end

namespace Section

variable {s : Section} {t t' : Table}

theorem keyed_of_value? {v : Value} (h : s.value? = some v) : v.Keyed :=
  Value.keyed_of_meaning? h

theorem keyed_of_open? {key : String} {v : Value} (ht : t.Keyed) (hv : v.Keyed)
    (h : open? t key v = some t') : t'.Keyed := by
  unfold open? at h
  split at h
  . contradiction
  . exact ht.add? hv h

theorem keyed_of_addTo?_singleton {key : String} (ht : t.Keyed) (h : s.addTo? [key] t = some t')
    : t'.Keyed := by
  rw [addTo?] at h
  split at h
  . simp only [Option.bind_eq_bind, Option.bind_eq_some_iff] at h
    obtain ⟨v, hv, h⟩ := h
    refine keyed_of_open? ht ?_ h
    split
    . apply Value.Keyed.array
      simpa using keyed_of_value? hv
    . exact keyed_of_value? hv
  . next old hlookup =>
    split at h
    . contradiction
    . simp only [Option.bind_eq_bind, Option.bind_eq_some_iff] at h
      obtain ⟨own, hown, both, hboth, h⟩ := h
      cases h
      have hold := Table.Keyed.of_value (ht.lookup hlookup)
      have hkeyed := hold.union? (Table.keyed_of_meaning? hown) hboth
      exact ht.replace (hkeyed.value .headed) key
  . next items hlookup =>
    split at h
    . simp only [Option.bind_eq_bind, Option.bind_eq_some_iff] at h
      obtain ⟨v, hv, h⟩ := h
      cases h
      exact ht.replace (.append true (ht.lookup hlookup).items (keyed_of_value? hv)) key
    . contradiction
  . contradiction

theorem keyed_of_addTo? {way : Key} (ht : t.Keyed) (h : s.addTo? way t = some t') : t'.Keyed := by
  induction way generalizing t t' with
  | nil =>
    rw [addTo?, Option.bind_eq_bind, Option.bind_eq_some_iff] at h
    obtain ⟨own, hown, h⟩ := h
    exact ht.union? (Table.keyed_of_meaning? hown) h
  | cons key rest ih =>
    cases rest with
    | nil => exact keyed_of_addTo?_singleton ht h
    | cons next rest =>
      rw [addTo?.eq_def] at h
      dsimp only at h
      -- each way on leads through a table with each key once, so the induction applies behind it
      simp only [Option.bind_eq_bind] at h
      split at h
      . obtain ⟨sub, hsub, h⟩ := Option.bind_eq_some_iff.1 h
        exact keyed_of_open? ht ((ih .nil hsub).value .implied) h
      . next old hlookup =>
        obtain ⟨sub, hsub, h⟩ := Option.bind_eq_some_iff.1 h
        cases h
        exact ht.replace ((ih (.of_value (ht.lookup hlookup)) hsub).value .implied) key
      . next old hlookup =>
        obtain ⟨sub, hsub, h⟩ := Option.bind_eq_some_iff.1 h
        cases h
        exact ht.replace ((ih (.of_value (ht.lookup hlookup)) hsub).value .headed) key
      . next items hlookup =>
        have hitems := (ht.lookup hlookup).items
        split at h
        . next origin old hlast =>
          have hold := hitems _ (List.mem_of_getLast? hlast)
          obtain ⟨sub, hsub, h⟩ := Option.bind_eq_some_iff.1 h
          cases h
          apply ht.replace
          apply Value.Keyed.append
          . intro item hitem
            exact hitems item (List.dropLast_subset items hitem)
          . exact (ih (.of_value hold) hsub).value origin
        . contradiction
      . contradiction

end Section

namespace Document

theorem keyed_of_foldlM {sections : List Section} {t t' : Table} (ht : t.Keyed)
    (h : sections.foldlM (fun t s => s.addTo? s.key t) t = some t')
    : t'.Keyed := by
  induction sections generalizing t with
  | nil =>
    cases h
    exact ht
  | cons s sections ih =>
    rw [List.foldlM_cons, Option.bind_eq_bind, Option.bind_eq_some_iff] at h
    obtain ⟨next, hnext, h⟩ := h
    exact ih (Section.keyed_of_addTo? ht hnext) h

theorem keyed_of_build? {sections : List Section} {t : Table} (h : build? sections = some t)
    : t.Keyed := by
  unfold build? at h
  split at h
  . cases h
    exact .nil
  . split at h
    . obtain ⟨date, _, rfl⟩ := Option.map_eq_some_iff.1 h
      exact .nil
    . exact keyed_of_foldlM .nil h

theorem keyed_of_parse? {text : String} {t : Table} (h : parse? text = some t) : t.Keyed := by
  unfold parse? at h
  simp only [Option.bind_eq_bind, Option.bind_eq_some_iff] at h
  obtain ⟨_, _, _, _, sections, _, h⟩ := h
  exact keyed_of_build? h

theorem parse?_of_no_header {text : String} (tokens : List Token) (statements : List Statement)
    (entries : Table) (hmark : (foldLineEnds text.toList).head? ≠ some '\uFEFF')
    (htokens : Token.scan (foldLineEnds text.toList) = some tokens)
    (hstatements : Statement.parse? tokens = some statements)
    (hsections : Section.ofStatements? {} statements = some [{ entries }])
    (hdate : entries.isDate = false)
    : parse? text = (Table.meaning? entries).bind (Table.union? []) := by
  have hbuild : build? [{ entries }] = (Table.meaning? entries).bind (Table.union? []) := by
    rw [build?, if_neg (by simp [hdate]), List.foldlM_cons, Section.addTo?]
    exact Option.bind_fun_some _
  unfold parse?
  split
  . next heq => simp [heq] at hmark
  . simp [htokens, hstatements, hsections, hbuild]

end Document

end FtpControl.Toml
