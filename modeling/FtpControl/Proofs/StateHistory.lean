import Mathlib.Data.List.Induction
import FtpControl.Login

/-!
This module contains the states that a session can come to. A state is determined by the calls that
led to it, and it can be told from them without going through the phases of the login: by the names
that were given, by the rejections behind them and by the paths that were entered.
-/

namespace FtpControl.SessionState

inductive Change where
  | begin (name : String)
  | complete
  | reject
  | enter (path : String)
  deriving Repr, DecidableEq

namespace Change

def name? : Change → Option String
  | begin name => some name
  | _ => none

def directory? : Change → Option String
  | enter path => if path = "" then none else some path
  | _ => none

def isLogin : Change → Bool
  | enter _ => false
  | _ => true

inductive Result where
  | nothing
  | user (name? : Option String)
  | entered (result : Except StateError Unit)

end Change

def apply (st : SessionState) : Change → SessionState × Change.Result
  | .begin name => (st.begin name, .nothing)
  | .complete => (st.complete.1, .user st.complete.2)
  | .reject => (st.reject, .nothing)
  | .enter path =>
    match st.enter path with
    | .ok entered => (entered, .entered (.ok ()))
    | .error e => (st, .entered (.error e))

def ofChanges (changes : List Change) : SessionState :=
  changes.foldl (fun st change => (st.apply change).1) initial

abbrev Past := List Change

namespace Past

def lastName? (past : Past) : Option String :=
  past.reverse.findSome? Change.name?

def openName? (past : Past) : Option String :=
  (past.reverse.takeWhile (· ≠ .reject)).findSome? Change.name?

def directory (past : Past) : String :=
  (past.reverse.findSome? Change.directory?).getD "/"

def IsOpen (past : Past) : Prop :=
  ∃ before name behind, past = before ++ .begin name :: behind ∧ .reject ∉ behind

-- A completion is the first one that finds an open name.
def IsDecisive (past : Past) : Prop :=
  past.IsOpen ∧ ∀ before behind, past = before ++ .complete :: behind → ¬IsOpen before

section

variable (past : Past) (change : Change)

theorem lastName?_concat
    : lastName? (past ++ [change]) = change.name?.or past.lastName? := by
  unfold lastName?
  rw [List.reverse_append, List.reverse_singleton, List.singleton_append, List.findSome?_cons]
  cases change.name? <;> rfl

theorem openName?_concat
    : openName? (past ++ [change])
        =
      if change = .reject then none else change.name?.or past.openName? := by
  unfold openName?
  rw [List.reverse_append, List.reverse_singleton, List.singleton_append, List.takeWhile_cons]
  by_cases hreject : change = .reject
  . simp [hreject]
  . simp only [hreject, ne_eq, not_false_eq_true, decide_true, ↓reduceIte, List.findSome?_cons]
    cases change.name? <;> rfl

theorem directory_concat
    : directory (past ++ [change]) = change.directory?.getD past.directory := by
  unfold directory
  rw [List.reverse_append, List.reverse_singleton, List.singleton_append, List.findSome?_cons]
  cases change.directory? <;> rfl

theorem isOpen_concat
    : IsOpen (past ++ [change]) ↔ change ≠ .reject ∧ (change.name?.isSome ∨ past.IsOpen) := by
  constructor
  . rintro ⟨before, name, behind, hpast, hreject⟩
    obtain rfl | ⟨middle, last, rfl⟩ := List.eq_nil_or_concat behind
    . obtain ⟨-, hlast⟩ := List.append_inj' hpast rfl
      obtain rfl := List.singleton_inj.1 hlast
      simp [Change.name?]
    . rw [List.concat_eq_append, ← List.cons_append, ← List.append_assoc] at hpast
      obtain ⟨rfl, hlast⟩ := List.append_inj' hpast rfl
      obtain rfl := List.singleton_inj.1 hlast
      simp only [List.concat_eq_append, List.mem_append, List.mem_singleton, not_or] at hreject
      exact ⟨Ne.symm hreject.2, .inr ⟨before, name, middle, rfl, hreject.1⟩⟩
  . rintro ⟨hreject, hname | ⟨before, name, behind, rfl, hbehind⟩⟩
    . cases change with
      | begin name => exact ⟨past, name, [], rfl, List.not_mem_nil⟩
      | complete | reject | enter => simp [Change.name?] at hname
    . refine ⟨before, name, behind ++ [change], by simp, ?_⟩
      simp [hbehind, hreject.symm]

end

theorem isOpen_iff (past : Past) : past.IsOpen ↔ past.openName?.isSome = true := by
  induction past using List.reverseRecOn with
  | nil =>
    simp [IsOpen, openName?]
  | append_singleton past change ih =>
    rw [isOpen_concat, openName?_concat, ih]
    by_cases hreject : change = .reject
    . simp [hreject]
    . cases hname : change.name? <;> simp [hreject]

theorem lastName?_of_openName? {past : Past} {name : String} (h : past.openName? = some name)
    : past.lastName? = some name := by
  induction past using List.reverseRecOn with
  | nil => exact h
  | append_singleton past change ih =>
    rw [openName?_concat] at h
    rw [lastName?_concat]
    split at h
    . contradiction
    . cases hname : change.name? <;> simp_all

theorem exists_isDecisive {changes before behind : List Change}
    (hchanges : changes = before ++ .complete :: behind) (hopen : IsOpen before)
    : ∃ past future, changes = past ++ .complete :: future ∧ IsDecisive past := by
  by_cases hfirst : ∀ earlier later, before = earlier ++ .complete :: later → ¬IsOpen earlier
  . exact ⟨before, behind, hchanges, hopen, hfirst⟩
  . push Not at hfirst
    obtain ⟨earlier, later, rfl, hearlier⟩ := hfirst
    rw [List.append_assoc, List.cons_append] at hchanges
    exact exists_isDecisive hchanges hearlier
termination_by before.length
decreasing_by
  simp_all only [List.length_append, List.length_cons]
  omega

end Past

theorem ofChanges_append (past future : List Change)
    : ofChanges (past ++ future)
        =
      future.foldl (fun st change => (st.apply change).1) (ofChanges past) := by
  unfold ofChanges
  rw [List.foldl_append]

theorem ofChanges_concat (past : List Change) (change : Change)
    : ofChanges (past ++ [change]) = ((ofChanges past).apply change).1 := by
  rw [ofChanges_append]
  rfl

section

variable (st : SessionState) (change : Change)

theorem directory_apply
    : (st.apply change).1.directory = change.directory?.getD st.directory := by
  cases change with
  | begin | complete | reject => rfl
  | enter path => by_cases hpath : path = "" <;> simp [apply, enter, Change.directory?, hpath]

theorem login_apply_enter (path : String) : (st.apply (.enter path)).1.login = st.login := by
  by_cases hpath : path = "" <;> simp [apply, enter, hpath]

theorem apply_of_loggedIn {name : String} (hlogin : st.login = .loggedIn name)
    : (st.apply change).1.login = .loggedIn name
        ∧
      (change.isLogin = true → (st.apply change).1 = st) := by
  obtain ⟨login, directory, hdirectory⟩ := st
  dsimp only at hlogin
  subst hlogin
  cases change with
  | begin | complete | reject => exact ⟨rfl, fun _ => rfl⟩
  | enter path => exact ⟨login_apply_enter _ path, fun h => by contradiction⟩

end

theorem login_foldl_of_loggedIn {st : SessionState} {name : String}
    (hlogin : st.login = .loggedIn name) (future : List Change)
    : (future.foldl (fun st change => (st.apply change).1) st).login = .loggedIn name := by
  induction future generalizing st with
  | nil => exact hlogin
  | cons change future ih => exact ih (st.apply_of_loggedIn change hlogin).1

theorem login_ofChanges {changes : List Change}
    (h : ∀ past future, changes = past ++ .complete :: future → ¬Past.IsOpen past)
    : (ofChanges changes).login = (Past.openName? changes).elim .anonymous .pending := by
  induction changes using List.reverseRecOn with
  | nil => rfl
  | append_singleton changes change ih =>
    have hlogin := ih fun past future hpast => h past (future ++ [change]) (by simp [hpast])
    rw [ofChanges_concat, Past.openName?_concat]
    cases change with
    | begin name =>
      change (ofChanges changes).login.begin name = .pending name
      rw [hlogin]
      cases Past.openName? changes <;> rfl
    | complete =>
      have hnone : Past.openName? changes = none := by
        have hclosed := h changes [] rfl
        rwa [Past.isOpen_iff, Option.not_isSome_iff_eq_none] at hclosed
      change (ofChanges changes).login.complete = (Past.openName? changes).elim .anonymous .pending
      rw [hlogin, hnone]
      rfl
    | reject =>
      change (ofChanges changes).login.reject = .anonymous
      rw [hlogin]
      cases Past.openName? changes <;> rfl
    | enter path =>
      rw [login_apply_enter, hlogin]
      rfl

theorem directory_ofChanges (changes : List Change)
    : (ofChanges changes).directory = Past.directory changes := by
  induction changes using List.reverseRecOn with
  | nil => rfl
  | append_singleton changes change ih =>
    rw [ofChanges_concat, directory_apply, Past.directory_concat, ih]

theorem exists_name_of_isDecisive {past : List Change} (h : Past.IsDecisive past)
    : ∃ name, Past.lastName? past = some name ∧ (ofChanges past).login = .pending name := by
  obtain ⟨hopen, hfirst⟩ := h
  obtain ⟨name, hname⟩ := Option.isSome_iff_exists.1 ((Past.isOpen_iff past).1 hopen)
  refine ⟨name, Past.lastName?_of_openName? hname, ?_⟩
  rw [login_ofChanges hfirst, hname]
  rfl

theorem login_of_isDecisive {past : List Change} {name : String}
    (hpending : (ofChanges past).login = .pending name) (future : List Change)
    : (ofChanges (past ++ .complete :: future)).login = .loggedIn name := by
  rw [ofChanges_append, List.foldl_cons]
  apply login_foldl_of_loggedIn
  change (ofChanges past).login.complete = .loggedIn name
  rw [hpending]
  rfl

/--
The state behind any calls. The first completion that finds an open name logs in the name that was
given last, for good; without one nobody is logged in and the open name is pending. The directory is
the one that was entered last, whatever becomes of the login, and the empty path is never entered.
-/
theorem ofChanges_history (changes : List Change)
    : (∀ past future, changes = past ++ .complete :: future → Past.IsDecisive past
        →
        ∃ name,
          Past.lastName? past = some name
            ∧
          ((ofChanges past).apply .complete).2 = .user (some name)
            ∧
          (ofChanges changes).currentUser? = some name
            ∧
          (ofChanges changes).pendingName? = none
            ∧
          (∀ change : Change, change.isLogin = true
            → ((ofChanges changes).apply change).1 = ofChanges changes)
            ∧
          ((ofChanges changes).apply .complete).2 = .user none)
        ∧
      ((∀ past future, changes = past ++ .complete :: future → ¬Past.IsDecisive past)
        →
        (ofChanges changes).currentUser? = none
          ∧
        (ofChanges changes).pendingName? = Past.openName? changes)
        ∧
      (ofChanges changes).directory = Past.directory changes
        ∧
      (ofChanges changes).directory ≠ ""
        ∧
      (∀ path,
        ((ofChanges changes).apply (.enter path)).2
            =
          .entered (if path = "" then .error .emptyDirectory else .ok ())
          ∧
        (path = "" → ((ofChanges changes).apply (.enter path)).1 = ofChanges changes)
          ∧
        ((ofChanges changes).apply (.enter path)).1.login = (ofChanges changes).login)
        ∧
      ∀ change : Change, change.isLogin = true
        → ((ofChanges changes).apply change).1.directory = (ofChanges changes).directory := by
  refine ⟨?_, ?_, directory_ofChanges changes, (ofChanges changes).directory_ne, ?_, ?_⟩
  . rintro past future rfl hdecisive
    obtain ⟨name, hlast, hpending⟩ := exists_name_of_isDecisive hdecisive
    have hlogin := login_of_isDecisive hpending future
    refine ⟨name, hlast, ?_, ?_, ?_, ?_, ?_⟩
    . change Change.Result.user (ofChanges past).login.pendingName? = .user (some name)
      rw [hpending]
      rfl
    . rw [currentUser?, hlogin]
      rfl
    . rw [pendingName?, hlogin]
      rfl
    . intro change
      exact ((ofChanges _).apply_of_loggedIn change hlogin).2
    . change Change.Result.user (ofChanges _).login.pendingName? = .user none
      rw [hlogin]
      rfl
  . intro hnone
    have hclosed : ∀ past future, changes = past ++ .complete :: future → ¬Past.IsOpen past := by
      intro past future hpast hopen
      obtain ⟨first, behind, hfirst, hdecisive⟩ := Past.exists_isDecisive hpast hopen
      exact hnone first behind hfirst hdecisive
    rw [currentUser?, pendingName?, login_ofChanges hclosed]
    cases Past.openName? changes <;> exact ⟨rfl, rfl⟩
  . intro path
    refine ⟨?_, ?_, login_apply_enter _ path⟩
    . by_cases hpath : path = "" <;> simp [apply, enter, hpath]
    . rintro rfl
      rfl
  . intro change hchange
    rw [directory_apply]
    cases change with
    | begin | complete | reject => rfl
    | enter => contradiction

example
    : let st := ofChanges [.begin "a", .reject, .complete, .begin "b", .begin "", .enter "/pub",
        .complete, .begin "c", .enter ""]
      st.currentUser? = some "" ∧ st.pendingName? = none ∧ st.directory = "/pub" := by
  decide

end FtpControl.SessionState
