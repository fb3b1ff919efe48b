/-!
This module contains the state of one control connection: how far its login has come and its working
directory. A name is part of the phase it belongs to, so a pending name and a logged-in name never
exist side by side.
-/

namespace FtpControl

inductive Login where
  | anonymous
  | pending (name : String)
  | loggedIn (name : String)
  deriving Repr, DecidableEq

namespace Login

def pendingName? : Login → Option String
  | pending name => some name
  | _ => none

def currentUser? : Login → Option String
  | loggedIn name => some name
  | _ => none

def begin (name : String) : Login → Login
  | loggedIn user => loggedIn user
  | _ => pending name

def complete : Login → Login
  | pending name => loggedIn name
  | login => login

/-- The password of a pending name was refused, and the name goes with it. -/
def reject : Login → Login
  | pending _ => anonymous
  | login => login

end Login

inductive StateError where
  | emptyDirectory
  deriving Repr, DecidableEq

def StateError.message : StateError → String
  | emptyDirectory => "working directory cannot be empty"

structure SessionState where
  login : Login := .anonymous
  directory : String := "/"
  directory_ne : directory ≠ "" := by decide
  deriving DecidableEq

namespace SessionState

def initial : SessionState := {}

def pendingName? (st : SessionState) : Option String :=
  st.login.pendingName?

def currentUser? (st : SessionState) : Option String :=
  st.login.currentUser?

def isLoggedIn (st : SessionState) : Bool :=
  st.currentUser?.isSome

def begin (st : SessionState) (name : String) : SessionState :=
  { st with login := st.login.begin name }

def complete (st : SessionState) : SessionState × Option String :=
  ({ st with login := st.login.complete }, st.pendingName?)

def reject (st : SessionState) : SessionState :=
  { st with login := st.login.reject }

def enter (st : SessionState) (path : String) : Except StateError SessionState :=
  if h : path = "" then
    .error .emptyDirectory
  else
    .ok { st with directory := path, directory_ne := h }

end SessionState

end FtpControl
