import FtpControl.Handler

/-!
This module contains ready-made handlers from which further commands can be put together.
-/

namespace FtpControl.Handler

def always (response : Response) : Handler where
  conduct _ st := .done (st, response)

def echo (code : ReplyCode) : Handler where
  conduct args st := .done (st, .ofText code ("|".intercalate args))

def whoAmI (code : ReplyCode) : Handler where
  conduct _ st :=
    .note ⟨.info, "whoami"⟩ (.done (st, .ofText code (st.currentUser?.getD "-")))

def changeDirectory (code : ReplyCode) : Handler where
  conduct args st :=
    match st.enter (args.head?.getD "") with
    | .ok st => .done (st, .ofText code st.directory)
    | .error e => .done (st, .refusal e.message)

def dropLogin (code : ReplyCode) : Handler where
  conduct _ st := .done (st.reject, .ofText code "rejected")

def forceLogin (code : ReplyCode) : Handler where
  conduct _ st := .done (st.complete.1, .ofText code (st.complete.2.getD "-"))

def probe (code : ReplyCode) : Handler where
  conduct args st :=
    .argument args 0 fun name =>
    .argument args 1 fun password =>
    .check ⟨name, password⟩ fun answer =>
      .done (st, .ofText code (match answer with
        | .ok true => "true"
        | _ => "false"))

def needing (minArgs : Nat) (h : Handler) : Handler :=
  { h with minArgs }

end FtpControl.Handler
