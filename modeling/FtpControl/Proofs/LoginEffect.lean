import FtpControl.Proofs.LoginCommands
import FtpControl.Proofs.Routing

/-!
This module contains what one line can do to a login, for registries in which only the two login
commands have to do with logins.
-/

namespace FtpControl

namespace Action

def Always {α : Type} (p : α → Prop) : Action α → Prop
  | done result => p result
  | note _ next => next.Always p
  | check _ _ => False
  | crash => True

theorem Always.run {α : Type} {p : α → Prop} {action : Action α} (h : action.Always p)
    (oracle : Oracle) (past : List Call)
    : (action.run oracle past).calls = past
        ∧
      (action.run oracle past).events.filterMap Event.call? = []
        ∧
      ∀ result, (action.run oracle past).stop = .done result → p result := by
  induction action with
  | done result =>
    refine ⟨rfl, rfl, ?_⟩
    intro found hstop
    rw [Action.run, Stop.done.injEq] at hstop
    rw [← hstop]
    exact h
  | note n next ih =>
    obtain ⟨hcalls, hevents, hstop⟩ := ih h
    refine ⟨hcalls, ?_, hstop⟩
    rw [Action.run, Outcome.after, List.filterMap_cons_none (by rfl), hevents]
  | check call next => contradiction
  | crash =>
    refine ⟨rfl, rfl, ?_⟩
    intro found hstop
    rw [Action.run] at hstop
    contradiction

end Action

def Handler.LeavesLogin (h : Handler) : Prop :=
  ∀ args st, (h.conduct args st).Always fun result => result.1.login = st.login

theorem Handler.not_leavesLogin_user : ¬ Handler.user.LeavesLogin := by
  intro h
  have hbegin : Login.pending "a" = Login.anonymous := h ["a"] .initial
  contradiction

theorem Handler.pass_ne_user : Handler.pass ≠ Handler.user := by
  intro h
  have hpass : (Handler.pass.conduct ["a"] .initial).Always fun result =>
    result.1.login = .anonymous := rfl
  rw [h] at hpass
  have hbegin : Login.pending "a" = Login.anonymous := hpass
  contradiction

theorem Handler.leavesLogin_unknown : Handler.unknown.LeavesLogin := by
  intro args st
  rfl

namespace Registry

/-- Only USER and PASS, under whatever verbs, have to do with logins. -/
structure LoginOnly (r : Registry) : Prop where
  handlers : ∀ (verb : String) h, r.handlers[verb]? = some h
    → h = .user ∨ h = .pass ∨ h.LeavesLogin
  fallback : r.fallback.LeavesLogin

theorem loginOnly_empty : Registry.empty.LoginOnly := by
  constructor
  . intro verb h hfound
    unfold empty at hfound
    rw [Std.TreeMap.getElem?_emptyc] at hfound
    contradiction
  . exact Handler.leavesLogin_unknown

variable {r : Registry}

theorem LoginOnly.register (hr : r.LoginOnly) (verb : String) {h : Handler}
    (hh : h = .user ∨ h = .pass ∨ h.LeavesLogin) : (r.register verb h).LoginOnly := by
  constructor
  . intro other found hfound
    unfold Registry.register at hfound
    rw [Std.TreeMap.getElem?_insert] at hfound
    split at hfound
    . rw [← Option.some.inj hfound]
      exact hh
    . exact hr.handlers other found hfound
  . exact hr.fallback

theorem LoginOnly.setFallback (hr : r.LoginOnly) {h : Handler} (hh : h.LeavesLogin)
    : (r.setFallback h).LoginOnly := by
  constructor
  . exact hr.handlers
  . exact hh

theorem loginOnly_withLogin : Registry.withLogin.LoginOnly := by
  apply LoginOnly.register
  . apply LoginOnly.register
    . exact loginOnly_empty
    . exact .inl rfl
  . exact .inr (.inl rfl)

inductive Effect (r : Registry) (backend : Backend) (past : List Call) (x : Exchange String) : Prop
  | idle
    (hcalls : x.calls = [])
    (hpast : x.outcome.calls = past)
    (hafter : x.after.login = x.before.login)
    (huser : ∀ args, r.route x.request = .invoke .user args
      → ∃ name, x.before.login = .loggedIn name)
  | named {name : String} {args : List String}
    (hroute : r.route x.request = .invoke .user (name :: args))
    (hbefore : ∀ user, x.before.login ≠ .loggedIn user)
    (hcalls : x.calls = [])
    (hpast : x.outcome.calls = past)
    (hafter : x.after.login = .pending name)
  | granted {name password : String} {args : List String}
    (hroute : r.route x.request = .invoke .pass (password :: args))
    (hbefore : x.before.login = .pending name)
    (hcalls : x.calls = [⟨name, password⟩])
    (hpast : x.outcome.calls = ⟨name, password⟩ :: past)
    (hverdict : backend past ⟨name, password⟩ = .granted)
    (hafter : x.after.login = .loggedIn name)
  | refused {name password : String}
    (hbefore : x.before.login = .pending name)
    (hcalls : x.calls = [⟨name, password⟩])
    (hpast : x.outcome.calls = ⟨name, password⟩ :: past)
    (hverdict : backend past ⟨name, password⟩ ≠ .granted)
    (hafter : x.after.login = .anonymous ∨ x.response? = none)

variable {auth : Authenticator} {backend : Backend} {oracle : Action.Oracle} {st : SessionState}
  {past : List Call} {line : String}

theorem exchange_of_follow (r : Registry) (oracle : Action.Oracle) (st : SessionState)
    (past : List Call) (line : String)
    : (exchange r.handleLine oracle st past line).calls
          =
        (((r.route line).follow st).run oracle past).events.filterMap Event.call?
        ∧
      (exchange r.handleLine oracle st past line).outcome.calls
          =
        (((r.route line).follow st).run oracle past).calls
        ∧
      (exchange r.handleLine oracle st past line).outcome.stop
          =
        (((r.route line).follow st).run oracle past).stop := by
  have hrun : (exchange r.handleLine oracle st past line).outcome
      = (((r.route line).follow st).run oracle past).after
        (.noted (.command (Text.stripLineEnding line))) := by
    unfold exchange handleLine
    rw [Action.run]
  unfold Exchange.calls
  rw [hrun, Action.Outcome.after]
  refine ⟨?_, ?_, ?_⟩
  . rw [List.filterMap_cons_none (by rfl)]
  . dsimp only
  . dsimp only

theorem exchange_of_invoke {h : Handler} {args : List String}
    {o : Action.Outcome (SessionState × Response)} (hroute : r.route line = .invoke h args)
    (hrun : (h.conduct args st).run oracle past = o)
    : (exchange r.handleLine oracle st past line).calls = o.events.filterMap Event.call?
        ∧
      (exchange r.handleLine oracle st past line).outcome.calls = o.calls
        ∧
      (exchange r.handleLine oracle st past line).outcome.stop = o.stop := by
  have hfollow := exchange_of_follow r oracle st past line
  rw [hroute, Route.follow, hrun] at hfollow
  exact hfollow

theorem effect_of_always
    (h : ((r.route line).follow st).Always fun result => result.1.login = st.login)
    (huser : ∀ args, r.route line = .invoke .user args → ∃ name, st.login = .loggedIn name)
    : Effect r backend past (exchange r.handleLine oracle st past line) := by
  obtain ⟨hcalls, hpast, hstop⟩ := exchange_of_follow r oracle st past line
  obtain ⟨hsame, hnone, hresult⟩ := h.run oracle past
  apply Effect.idle
  . rw [hcalls, hnone]
  . rw [hpast, hsame]
  . unfold Exchange.after
    rw [hstop]
    split
    . next found response hdone => exact hresult _ hdone
    . rfl
  . exact huser

theorem effect_of_unchanged {h : Handler} {args : List String} {response : Response}
    (hroute : r.route line = .invoke h args)
    (hrun : (h.conduct args st).run oracle past = ⟨past, [], .done (st, response)⟩)
    (huser : ∀ args, r.route line = .invoke .user args → ∃ name, st.login = .loggedIn name)
    : Effect r backend past (exchange r.handleLine oracle st past line) := by
  obtain ⟨hcalls, hpast, hstop⟩ := exchange_of_invoke hroute hrun
  apply Effect.idle
  . exact hcalls
  . exact hpast
  . rw [Exchange.after_of_done hstop]
    rfl
  . exact huser

theorem effect_user {name : String} {args : List String}
    (hroute : r.route line = .invoke .user (name :: args))
    : Effect r backend past (exchange r.handleLine oracle st past line) := by
  by_cases h : ∀ user, st.login ≠ .loggedIn user
  . have hrun := Handler.run_user_of_not_loggedIn oracle past args name h
    obtain ⟨hcalls, hpast, hstop⟩ := exchange_of_invoke hroute hrun
    apply Effect.named
    . exact hroute
    . exact h
    . exact hcalls
    . exact hpast
    . rw [Exchange.after_of_done hstop]
  . simp only [ne_eq, not_forall, not_not] at h
    obtain ⟨user, hlogin⟩ := h
    apply effect_of_unchanged hroute
    . exact Handler.run_user_of_loggedIn oracle past (name :: args) hlogin
    . intro _ _
      exact ⟨user, hlogin⟩

theorem effect_pass {password : String} {args : List String}
    (hroute : r.route line = .invoke .pass (password :: args))
    : Effect r backend past (exchange r.handleLine (auth.consult backend) st past line) := by
  have huser : ∀ args, r.route line = .invoke .user args
      → ∃ name, st.login = .loggedIn name := by
    intro found hfound
    rw [hroute, Route.invoke.injEq] at hfound
    exact absurd hfound.1 Handler.pass_ne_user
  cases hlogin : st.login with
  | anonymous =>
    apply effect_of_unchanged hroute
    . exact Handler.run_pass_of_anonymous _ past (password :: args) hlogin
    . exact huser
  | loggedIn user =>
    apply effect_of_unchanged hroute
    . exact Handler.run_pass_of_loggedIn _ past (password :: args) hlogin
    . exact huser
  | pending name =>
    -- Only one answer lets somebody in, and only one verdict leads to it.
    have hgranted := auth.consult_eq_ok_true_iff backend past ⟨name, password⟩
    cases hanswer : auth.consult backend past ⟨name, password⟩ with
    | none =>
      obtain ⟨hcalls, hpast, hstop⟩ := exchange_of_invoke hroute
        (Handler.run_pass_of_unanswered _ past args password hlogin hanswer)
      apply Effect.refused hlogin hcalls hpast
      . rw [Ne, ← hgranted, hanswer]
        simp
      . right
        unfold Exchange.response?
        rw [hstop]
    | some answer =>
      by_cases hyes : answer = .ok true
      . rw [hyes] at hanswer
        obtain ⟨hcalls, hpast, hstop⟩ := exchange_of_invoke hroute
          (Handler.run_pass_of_granted _ past args password hlogin hanswer)
        apply Effect.granted
        . exact hroute
        . exact hlogin
        . exact hcalls
        . exact hpast
        . exact hgranted.1 hanswer
        . rw [Exchange.after_of_done hstop]
      . obtain ⟨notes, hrun⟩ :=
          Handler.run_pass_of_refused _ past args password hlogin hanswer hyes
        obtain ⟨hcalls, hpast, hstop⟩ := exchange_of_invoke hroute hrun
        have hnotes : (notes.map Event.noted).filterMap Event.call? = [] := by
          rw [List.filterMap_map]
          exact List.filterMap_eq_nil_iff.2 fun _ _ => rfl
        apply Effect.refused hlogin _ hpast
        . rw [Ne, ← hgranted, hanswer, Option.some.injEq]
          exact hyes
        . left
          rw [Exchange.after_of_done hstop]
        . rw [hcalls, List.filterMap_cons_some (by rfl), hnotes]

theorem effect_exchange (hr : r.LoginOnly) (auth : Authenticator) (backend : Backend)
    (st : SessionState) (past : List Call) (line : String)
    : Effect r backend past (exchange r.handleLine (auth.consult backend) st past line) := by
  cases hroute : r.route line with
  | blank =>
    apply effect_of_always
    . rw [hroute]
      rfl
    . intro args hfound
      rw [hroute] at hfound
      cases hfound
  | incomplete verb required given =>
    apply effect_of_always
    . rw [hroute]
      rfl
    . intro args hfound
      rw [hroute] at hfound
      cases hfound
  | invoke h args =>
    have hleaves : h.LeavesLogin
        → Effect r backend past (exchange r.handleLine (auth.consult backend) st past line) := by
      intro hh
      apply effect_of_always
      . rw [hroute]
        exact hh args st
      . intro found hfound
        rw [hroute, Route.invoke.injEq] at hfound
        rw [hfound.1] at hh
        exact absurd hh Handler.not_leavesLogin_user
    -- A registered handler gets as many arguments as it needs; the fallback may get none.
    rcases r.invoke_of_route hroute with ⟨verb, hfound, hlength⟩ | hfallback
    . rcases hr.handlers verb h hfound with huser | hpass | hh
      . subst huser
        obtain ⟨name, rest, rfl⟩ := List.exists_cons_of_length_pos hlength
        exact effect_user hroute
      . subst hpass
        obtain ⟨password, rest, rfl⟩ := List.exists_cons_of_length_pos hlength
        exact effect_pass hroute
      . exact hleaves hh
    . rw [hfallback] at hleaves
      exact hleaves hr.fallback

end Registry

end FtpControl
