import Std.Data.TreeMap
import FtpControl.Auth

/-!
This module contains a table of accounts that can serve as the backend of credential checks.
-/

namespace FtpControl

structure Accounts where
  passwords : Std.TreeMap String String := {}

namespace Accounts

/-- The longest name or password that is looked at, in bytes. -/
def maxLength : Nat := 256

def isWellFormed (s : String) : Bool :=
  s.utf8ByteSize != 0 && s.utf8ByteSize ≤ maxLength
    && s.toList.all fun c => c != '\r' && c != '\n' && c != '\x00'

def ofList (entries : List (String × String)) : Accounts :=
  ⟨Std.TreeMap.ofList entries⟩

def insert (accounts : Accounts) (user password : String) : Accounts :=
  ⟨accounts.passwords.insert user password⟩

def toList (accounts : Accounts) : List (String × String) :=
  accounts.passwords.toList

def size (accounts : Accounts) : Nat :=
  accounts.passwords.size

def isEmpty (accounts : Accounts) : Bool :=
  accounts.passwords.isEmpty

def admits (accounts : Accounts) (user password : String) : Bool :=
  isWellFormed user && isWellFormed password && accounts.passwords[user]? == some password

def backend (accounts : Accounts) : Backend :=
  .ofFunction fun call => if accounts.admits call.user call.password then .granted else .denied

end Accounts

end FtpControl
