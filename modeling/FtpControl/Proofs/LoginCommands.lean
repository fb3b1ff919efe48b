import FtpControl.Proofs.Exchange

/-!
This module contains what the two login commands do in each phase of a login, and for each answer
that a password check can get.
-/

namespace FtpControl

theorem Authenticator.consult_eq_ok_true_iff (auth : Authenticator) (backend : Backend)
    (past : List Call) (call : Call)
    : auth.consult backend past call = some (.ok true) ↔ backend past call = .granted := by
  unfold consult conclude
  cases backend past call with
  | granted => simp
  | denied => simp
  | crashed message => simp
  | silent => cases auth.timeout <;> simp

namespace Handler

variable (oracle : Action.Oracle) (past : List Call) (args : List String) {st : SessionState}
  {name : String}

theorem run_user_of_loggedIn (h : st.login = .loggedIn name)
    : (user.conduct args st).run oracle past
        =
      ⟨past, [], .done (st, .refusal "Already logged in")⟩ := by
  have hlogin : st.isLoggedIn = true := by
    unfold SessionState.isLoggedIn SessionState.currentUser?
    rw [h]
    rfl
  unfold user
  dsimp only
  rw [if_pos hlogin]
  rfl

theorem run_user_of_not_loggedIn (arg : String) (h : ∀ user, st.login ≠ .loggedIn user)
    : (user.conduct (arg :: args) st).run oracle past
        =
      ⟨past, [], .done ({ st with login := .pending arg },
        .ofText .needPassword "User name ok, password required")⟩ := by
  have hlogin : ¬ st.isLoggedIn = true := by
    unfold SessionState.isLoggedIn SessionState.currentUser?
    cases hphase : st.login with
    | loggedIn user => exact absurd hphase (h user)
    | _ => simp [Login.currentUser?]
  have hbegin : st.begin arg = { st with login := .pending arg } := by
    unfold SessionState.begin
    cases hphase : st.login with
    | loggedIn user => exact absurd hphase (h user)
    | _ => rfl
  unfold user
  dsimp only
  rw [if_neg hlogin, Action.argument, List.getElem?_cons_zero]
  dsimp only
  rw [hbegin]
  rfl

theorem run_pass_of_loggedIn (h : st.login = .loggedIn name)
    : (pass.conduct args st).run oracle past
        =
      ⟨past, [], .done (st, .refusal "Already logged in")⟩ := by
  unfold pass
  dsimp only
  rw [h]
  rfl

theorem run_pass_of_anonymous (h : st.login = .anonymous)
    : (pass.conduct args st).run oracle past
        =
      ⟨past, [], .done (st, .refusal "Bad sequence of commands, send USER first")⟩ := by
  unfold pass
  dsimp only
  rw [h]
  rfl

variable (password : String)

theorem run_pass_of_pending (h : st.login = .pending name)
    : (pass.conduct (password :: args) st).run oracle past
        =
      (Action.check ⟨name, password⟩ (settle name st)).run oracle past := by
  unfold pass
  dsimp only
  rw [h]
  rfl

theorem run_pass_of_granted (h : st.login = .pending name)
    (hanswer : oracle past ⟨name, password⟩ = some (.ok true))
    : (pass.conduct (password :: args) st).run oracle past
        =
      ⟨⟨name, password⟩ :: past,
        [.called ⟨name, password⟩, .noted ⟨.info, s!"User {name} logged in"⟩],
        .done ({ st with login := .loggedIn name },
          .ofText .loggedIn "Password ok, continue")⟩ := by
  have hcomplete : st.complete.1 = { st with login := .loggedIn name } := by
    unfold SessionState.complete
    rw [h]
    rfl
  rw [run_pass_of_pending oracle past args password h, Action.run, hanswer]
  dsimp only
  rw [settle, accept, hcomplete]
  rfl

theorem run_pass_of_refused (h : st.login = .pending name) {answer : Answer}
    (hanswer : oracle past ⟨name, password⟩ = some answer) (hrefused : answer ≠ .ok true)
    : ∃ notes : List Note,
        (pass.conduct (password :: args) st).run oracle past
          =
        ⟨⟨name, password⟩ :: past, .called ⟨name, password⟩ :: notes.map .noted,
          .done ({ st with login := .anonymous },
            .ofText .notLoggedIn "Incorrect password, not logged in")⟩ := by
  have hreject : st.reject = { st with login := .anonymous } := by
    unfold SessionState.reject
    rw [h]
    rfl
  rw [run_pass_of_pending oracle past args password h, Action.run, hanswer]
  dsimp only
  rw [← hreject]
  cases answer with
  | error e =>
    exact ⟨[⟨.warn, s!"Authentication for {name} failed: {e.message}"⟩,
      ⟨.info, s!"Login rejected for {name}"⟩], rfl⟩
  | ok accepted =>
    cases accepted with
    | true => contradiction
    | false => exact ⟨[⟨.info, s!"Login rejected for {name}"⟩], rfl⟩

theorem run_pass_of_unanswered (h : st.login = .pending name)
    (hanswer : oracle past ⟨name, password⟩ = none)
    : (pass.conduct (password :: args) st).run oracle past
        =
      ⟨⟨name, password⟩ :: past, [.called ⟨name, password⟩], .waiting (settle name st)⟩ := by
  rw [run_pass_of_pending oracle past args password h, Action.run, hanswer]

end Handler

end FtpControl
