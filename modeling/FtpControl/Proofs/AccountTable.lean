import Mathlib.Data.Finset.Card
import FtpControl.Accounts

/-!
This module contains the theory of tables of accounts. Of the passwords that a name was given the
last one counts, and it lets somebody in exactly if the name and the password are fit for a check;
a table never looks at one account to answer for another.
-/

namespace FtpControl.Accounts

def insertAll (accounts : Accounts) (entries : List (String × String)) : Accounts :=
  entries.foldl (fun accounts entry => accounts.insert entry.1 entry.2) accounts

def lastPassword? (start : Accounts) (entries : List (String × String)) (user : String)
    : Option String :=
  (entries.reverse.lookup user).or start.passwords[user]?

def namesGiven (start : Accounts) (entries : List (String × String)) : Finset String :=
  (start.passwords.keys ++ entries.map Prod.fst).toFinset

structure IsFit (s : String) : Prop where
  ne_empty : s ≠ ""
  size_le : s.utf8ByteSize ≤ 256
  not_cr : '\r' ∉ s.toList
  not_lf : '\n' ∉ s.toList
  not_nul : '\x00' ∉ s.toList

theorem isWellFormed_iff {s : String} : isWellFormed s = true ↔ IsFit s := by
  have hall : (s.toList.all fun c => c != '\r' && c != '\n' && c != '\x00') = true
      ↔ '\r' ∉ s.toList ∧ '\n' ∉ s.toList ∧ '\x00' ∉ s.toList := by
    simp only [List.all_eq_true, Bool.and_eq_true, bne_iff_ne, ne_eq]
    constructor
    . intro h
      refine ⟨fun hcr => ?_, fun hlf => ?_, fun hnul => ?_⟩
      . exact (h _ hcr).1.1 rfl
      . exact (h _ hlf).1.2 rfl
      . exact (h _ hnul).2 rfl
    . rintro ⟨hcr, hlf, hnul⟩ c hc
      refine ⟨⟨?_, ?_⟩, ?_⟩ <;> rintro rfl <;> contradiction
  unfold isWellFormed maxLength
  rw [Bool.and_eq_true, Bool.and_eq_true, hall, bne_iff_ne, decide_eq_true_eq,
    ne_eq, String.utf8ByteSize_eq_zero_iff]
  constructor
  . rintro ⟨⟨hne, hsize⟩, hcr, hlf, hnul⟩
    exact ⟨hne, hsize, hcr, hlf, hnul⟩
  . rintro ⟨hne, hsize, hcr, hlf, hnul⟩
    exact ⟨⟨hne, hsize⟩, hcr, hlf, hnul⟩

theorem admits_iff (accounts : Accounts) (user password : String)
    : accounts.admits user password = true
        ↔
      accounts.passwords[user]? = some password ∧ IsFit user ∧ IsFit password := by
  unfold admits
  rw [Bool.and_eq_true, Bool.and_eq_true, beq_iff_eq, isWellFormed_iff, isWellFormed_iff]
  tauto

theorem getElem?_ofList {entries : List (String × String)} (hnodup : (entries.map Prod.fst).Nodup)
    (user : String)
    : (ofList entries).passwords[user]? = entries.lookup user := by
  unfold ofList
  cases hlookup : entries.lookup user with
  | none =>
    apply Std.TreeMap.getElem?_ofList_of_contains_eq_false
    rw [List.contains_eq_mem, decide_eq_false_iff_not]
    intro hmem
    obtain ⟨entry, hentry, rfl⟩ := List.mem_map.1 hmem
    exact bne_iff_ne.1 (List.lookup_eq_none_iff.1 hlookup entry hentry) rfl
  | some password =>
    obtain ⟨before, after, rfl, _⟩ := List.lookup_eq_some_iff.1 hlookup
    apply Std.TreeMap.getElem?_ofList_of_mem Std.ReflCmp.compare_self
    . rw [List.nodup_iff_pairwise_ne, List.pairwise_map] at hnodup
      apply hnodup.imp
      intro entry other hne heq
      exact hne (Std.LawfulEqCmp.compare_eq_iff_eq.1 heq)
    . simp

section

variable (accounts : Accounts) (entries : List (String × String))

theorem getElem?_insert (user password other : String)
    : (accounts.insert user password).passwords[other]?
        =
      if other = user then some password else accounts.passwords[other]? := by
  unfold insert
  rw [Std.TreeMap.getElem?_insert]
  simp only [Std.LawfulEqCmp.compare_eq_iff_eq, eq_comm (a := other)]

theorem getElem?_insertAll (user : String)
    : (accounts.insertAll entries).passwords[user]? = accounts.lastPassword? entries user := by
  unfold insertAll lastPassword?
  induction entries generalizing accounts with
  | nil => rfl
  | cons entry entries ih =>
    rw [List.foldl_cons, ih, getElem?_insert, List.reverse_cons, List.lookup_append,
      Option.or_assoc, List.lookup_cons]
    by_cases huser : user = entry.1
    . simp [huser]
    . simp [huser, beq_eq_false_iff_ne.2 huser]

theorem mem_insertAll (user : String)
    : user ∈ (accounts.insertAll entries).passwords
        ↔
      user ∈ accounts.passwords ∨ user ∈ entries.map Prod.fst := by
  unfold insertAll
  induction entries generalizing accounts with
  | nil => simp
  | cons entry entries ih =>
    rw [List.foldl_cons, ih, insert, Std.TreeMap.mem_insert, Std.LawfulEqCmp.compare_eq_iff_eq,
      List.map_cons, List.mem_cons]
    tauto

theorem size_insertAll
    : (accounts.insertAll entries).size = (accounts.namesGiven entries).card := by
  have hnodup : (accounts.insertAll entries).passwords.keys.Nodup := by
    apply Std.TreeMap.distinct_keys.imp
    rintro user other hne rfl
    exact hne Std.ReflCmp.compare_self
  have hnames : (accounts.insertAll entries).passwords.keys.toFinset
      = accounts.namesGiven entries := by
    ext user
    rw [namesGiven, List.mem_toFinset, List.mem_toFinset, List.mem_append, Std.TreeMap.mem_keys,
      Std.TreeMap.mem_keys, mem_insertAll]
  rw [size, ← Std.TreeMap.length_keys, ← List.toFinset_card_of_nodup hnodup, hnames]

end

/--
A table that started with any accounts and was given any more lets `user` in with `password` exactly
if this is the last password of `user` and both are fit for a check. So an account whose name or
password is not fit lets nobody in, and no account matters to the others.
-/
theorem admits_last_password (start : Accounts) (entries : List (String × String))
    : (∀ user password,
        (start.insertAll entries).admits user password = true
          ↔
        start.lastPassword? entries user = some password ∧ IsFit user ∧ IsFit password)
        ∧
      (start.insertAll entries).size = (start.namesGiven entries).card
        ∧
      ((start.insertAll entries).isEmpty = true ↔ (start.insertAll entries).size = 0)
        ∧
      (∀ user stored, start.lastPassword? entries user = some stored
        → ¬(IsFit user ∧ IsFit stored)
        → ∀ password, (start.insertAll entries).admits user password = false)
        ∧
      ∀ user other password, other ≠ user
        → ∀ attempt, ((start.insertAll entries).insert other password).admits user attempt
            =
          (start.insertAll entries).admits user attempt := by
  have hadmits : ∀ user password,
      (start.insertAll entries).admits user password = true
        ↔
      start.lastPassword? entries user = some password ∧ IsFit user ∧ IsFit password := by
    intro user password
    rw [admits_iff, getElem?_insertAll]
  refine ⟨hadmits, size_insertAll start entries, ?_, ?_, ?_⟩
  . rw [isEmpty, size, Std.TreeMap.isEmpty_eq_size_eq_zero, beq_iff_eq]
  . intro user stored hstored hunfit password
    rw [Bool.eq_false_iff, ne_eq, hadmits, hstored]
    rintro ⟨hsame, hfit⟩
    obtain rfl := Option.some.inj hsame
    exact hunfit hfit
  . intro user other password hne attempt
    rw [Bool.eq_iff_iff, admits_iff, admits_iff, getElem?_insert, if_neg hne.symm]

example
    : let table : Accounts := insertAll {} [("eve", ""), ("alice", "old"), ("alice", "new")]
      table.size = 2 ∧ table.admits "eve" "" = false ∧ table.admits "alice" "old" = false
        ∧ table.admits "alice" "new" = true := by
  decide +kernel

end FtpControl.Accounts
