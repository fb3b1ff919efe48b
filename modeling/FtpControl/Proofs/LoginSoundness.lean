import FtpControl.Proofs.LoginEffect

/-!
This module contains the soundness of logins: who is logged in has given a name and then the
password that the backend granted for it, and after that nothing changes.
-/

namespace FtpControl

def Backend.Ungranted (backend : Backend) (calls : List Call) : Prop :=
  ∀ call older, call :: older <:+ calls → backend older call ≠ .granted

theorem Backend.ungranted_nil (backend : Backend) : backend.Ungranted [] := by
  intro call older hsuffix
  have hnil := List.suffix_nil.1 hsuffix
  contradiction

theorem Backend.Ungranted.cons {backend : Backend} {call : Call} {past : List Call}
    (h : backend.Ungranted past) (hcall : backend past call ≠ .granted)
    : backend.Ungranted (call :: past) := by
  intro other older hsuffix
  rw [List.suffix_cons_iff] at hsuffix
  cases hsuffix with
  | inl heq =>
    rw [List.cons.injEq] at heq
    rw [heq.1, heq.2]
    exact hcall
  | inr hsuffix => exact h other older hsuffix

theorem SessionState.currentUser?_eq_some_iff (st : SessionState) (name : String)
    : st.currentUser? = some name ↔ st.login = .loggedIn name := by
  unfold currentUser? Login.currentUser?
  split
  . next user hlogin => simp [hlogin]
  . next hlogin =>
    constructor
    . intro h
      contradiction
    . intro h
      exact absurd h (hlogin name)

namespace Registry

variable {r : Registry} {backend : Backend} {past : List Call}

-- The last name that was given is `name`, and no call has been made since.
def NamedLast (r : Registry) (name : String) (xs : List (Exchange String)) : Prop :=
  ∃ (before : List (Exchange String)) (user : Exchange String) (between : List (Exchange String))
      (args : List String),
    xs = before ++ user :: between
      ∧ r.route user.request = .invoke .user (name :: args)
      ∧ (∀ x ∈ between, ∀ args, r.route x.request ≠ .invoke .user args)
      ∧ ∀ x ∈ user :: between, x.calls = []

section

variable {name : String} {xs : List (Exchange String)} {x : Exchange String}

theorem namedLast_concat {args : List String}
    (hroute : r.route x.request = .invoke .user (name :: args)) (hcalls : x.calls = [])
    : r.NamedLast name (xs ++ [x]) := by
  refine ⟨xs, x, [], args, rfl, hroute, by simp, ?_⟩
  rw [List.forall_mem_singleton]
  exact hcalls

theorem NamedLast.concat (h : r.NamedLast name xs) (hcalls : x.calls = [])
    (hroute : ∀ args, r.route x.request ≠ .invoke .user args) : r.NamedLast name (xs ++ [x]) := by
  obtain ⟨before, user, between, args, rfl, huser, hbetween, hquiet⟩ := h
  refine ⟨before, user, between ++ [x], args, by simp, huser, ?_, ?_⟩
  . rw [List.forall_mem_append, List.forall_mem_singleton]
    exact ⟨hbetween, hroute⟩
  . rw [← List.cons_append, List.forall_mem_append, List.forall_mem_singleton]
    exact ⟨hquiet, hcalls⟩

end

inductive Explains (r : Registry) (backend : Backend)
    : List (Exchange String) → List Call → Login → Prop
  | anonymous {xs : List (Exchange String)} {past : List Call}
    (hungranted : backend.Ungranted past)
    : Explains r backend xs past .anonymous
  | pending {xs : List (Exchange String)} {past : List Call} {name : String}
    (hungranted : backend.Ungranted past)
    (hnamed : r.NamedLast name xs)
    : Explains r backend xs past (.pending name)
  | loggedIn {before after : List (Exchange String)} {x : Exchange String} {past : List Call}
    {name password : String} {args : List String}
    (hungranted : backend.Ungranted past)
    (hnamed : r.NamedLast name before)
    (hroute : r.route x.request = .invoke .pass (password :: args))
    (hcalls : x.calls = [⟨name, password⟩])
    (hverdict : backend past ⟨name, password⟩ = .granted)
    (hlogin : ∀ y ∈ x :: after, y.after.login = .loggedIn name)
    (hquiet : ∀ y ∈ after, y.calls = [])
    : Explains r backend (before ++ x :: after) (⟨name, password⟩ :: past) (.loggedIn name)

theorem Effect.of_loggedIn {x : Exchange String} {name : String} (hx : Effect r backend past x)
    (h : x.before.login = .loggedIn name)
    : x.calls = [] ∧ x.outcome.calls = past ∧ x.after.login = .loggedIn name := by
  cases hx with
  | idle hcalls hpast hafter _ => exact ⟨hcalls, hpast, hafter.trans h⟩
  | named _ hbefore _ _ _ => exact absurd h (hbefore name)
  | granted _ hbefore _ _ _ _ =>
    rw [h] at hbefore
    cases hbefore
  | refused hbefore _ _ _ _ =>
    rw [h] at hbefore
    cases hbefore

theorem Explains.concat_of_anonymous {xs : List (Exchange String)} {x : Exchange String}
    (hungranted : backend.Ungranted past) (hlogin : x.before.login = .anonymous)
    (hx : Effect r backend past x)
    : Explains r backend (xs ++ [x]) x.outcome.calls x.after.login := by
  cases hx with
  | idle _ hpast hafter _ =>
    rw [hpast, hafter, hlogin]
    exact .anonymous hungranted
  | named hroute _ hcalls hpast hafter =>
    rw [hpast, hafter]
    exact .pending hungranted (namedLast_concat hroute hcalls)
  | granted _ hbefore _ _ _ _ =>
    rw [hlogin] at hbefore
    cases hbefore
  | refused hbefore _ _ _ _ =>
    rw [hlogin] at hbefore
    cases hbefore

theorem Explains.concat_of_pending {xs : List (Exchange String)} {x : Exchange String}
    {name : String} (hungranted : backend.Ungranted past) (hnamed : r.NamedLast name xs)
    (hlogin : x.before.login = .pending name) (hx : Effect r backend past x)
    (hsettled : x.response? = none → x.calls = [])
    : Explains r backend (xs ++ [x]) x.outcome.calls x.after.login := by
  cases hx with
  | idle hcalls hpast hafter huser =>
    rw [hpast, hafter, hlogin]
    apply Explains.pending hungranted
    apply hnamed.concat hcalls
    intro args hroute
    obtain ⟨user, hbefore⟩ := huser args hroute
    rw [hlogin] at hbefore
    cases hbefore
  | named hroute _ hcalls hpast hafter =>
    rw [hpast, hafter]
    exact .pending hungranted (namedLast_concat hroute hcalls)
  | granted hroute hbefore hcalls hpast hverdict hafter =>
    rw [hlogin, Login.pending.injEq] at hbefore
    subst hbefore
    rw [hpast, hafter]
    apply Explains.loggedIn hungranted hnamed hroute hcalls hverdict
    . rw [List.forall_mem_singleton]
      exact hafter
    . simp
  | refused hbefore hcalls hpast hverdict hafter =>
    cases hafter with
    | inl hanonymous =>
      rw [hpast, hanonymous]
      exact .anonymous (hungranted.cons hverdict)
    | inr hnone =>
      -- A call without an answer has no next line, so the name it was for is not asked about.
      rw [hsettled hnone] at hcalls
      contradiction

theorem Explains.concat {xs : List (Exchange String)} {x : Exchange String}
    (h : Explains r backend xs past x.before.login) (hx : Effect r backend past x)
    (hsettled : x.response? = none → x.calls = [])
    : Explains r backend (xs ++ [x]) x.outcome.calls x.after.login := by
  generalize hlogin : x.before.login = login at h
  cases h with
  | anonymous hungranted => exact concat_of_anonymous hungranted hlogin hx
  | pending hungranted hnamed => exact concat_of_pending hungranted hnamed hlogin hx hsettled
  | @loggedIn before after pass _ name _ _ hungranted hnamed hroute hcalls hverdict hafter hquiet =>
    obtain ⟨hidle, hpast, hsame⟩ := hx.of_loggedIn hlogin
    rw [hpast, hsame, List.append_assoc, List.cons_append]
    apply Explains.loggedIn hungranted hnamed hroute hcalls hverdict
    . rw [← List.cons_append, List.forall_mem_append, List.forall_mem_singleton]
      exact ⟨hafter, hsame⟩
    . rw [List.forall_mem_append, List.forall_mem_singleton]
      exact ⟨hquiet, hidle⟩

theorem Explains.exists_grant {xs : List (Exchange String)} {calls : List Call} {name : String}
    (h : Explains r backend xs calls (.loggedIn name))
    : ∃ (before : List (Exchange String)) (x : Exchange String) (after : List (Exchange String))
          (password : String) (past : List Call) (args : List String),
        xs = before ++ x :: after
          ∧ calls = ⟨name, password⟩ :: past
          ∧ backend.Ungranted past
          ∧ r.NamedLast name before
          ∧ r.route x.request = .invoke .pass (password :: args)
          ∧ x.calls = [⟨name, password⟩]
          ∧ backend past ⟨name, password⟩ = .granted
          ∧ (∀ y ∈ x :: after, y.after.login = .loggedIn name)
          ∧ ∀ y ∈ after, y.calls = [] := by
  cases h with
  | @loggedIn before after x past _ password args hungranted hnamed hroute hcalls hverdict hlogin
      hquiet =>
    exact ⟨before, x, after, password, past, args, rfl, rfl, hungranted, hnamed, hroute, hcalls,
      hverdict, hlogin, hquiet⟩

theorem Effect.login_of_stuck {x : Exchange String} (hx : Effect r backend past x)
    (hnone : x.response? = none) (hcalls : x.calls ≠ [])
    : ∃ name, x.after.login = .pending name := by
  rw [Exchange.after_of_response? hnone]
  cases hx with
  | idle hidle _ _ _ => contradiction
  | named _ _ hidle _ _ => contradiction
  | granted _ hbefore _ _ _ _ => exact ⟨_, hbefore⟩
  | refused hbefore _ _ _ _ => exact ⟨_, hbefore⟩

section

variable (hr : r.LoginOnly) (auth : Authenticator) (backend : Backend) (st : SessionState)
  (past : List Call) (lines : List String)

include hr

theorem explains_exchanges (xs : List (Exchange String))
    (h : Explains r backend xs past st.login)
    : Explains r backend (xs ++ exchanges r.handleLine (auth.consult backend) st past lines)
          (Exchange.last (·.outcome.calls) past
            (exchanges r.handleLine (auth.consult backend) st past lines))
          (Exchange.last (·.after) st
            (exchanges r.handleLine (auth.consult backend) st past lines)).login
        ∨
      ∃ name, (Exchange.last (·.after) st
        (exchanges r.handleLine (auth.consult backend) st past lines)).login = .pending name := by
  -- The invariant looks back on the exchanges before `lines`, so they are general too.
  induction lines generalizing st past xs with
  | nil =>
    rw [exchanges, List.append_nil]
    exact .inl h
  | cons line lines ih =>
    have hx := effect_exchange hr auth backend st past line
    have hconcat := h.concat (x := exchange r.handleLine (auth.consult backend) st past line) hx
    cases hresponse : (exchange r.handleLine (auth.consult backend) st past line).response? with
    | none =>
      -- The last exchange has no result. If it made a call, that is still without an answer.
      simp only [exchanges_cons_of_none _ _ _ _ _ _ hresponse, Exchange.last_cons,
        Exchange.last_nil]
      by_cases hcalls : (exchange r.handleLine (auth.consult backend) st past line).calls = []
      . exact .inl (hconcat fun _ => hcalls)
      . exact .inr (hx.login_of_stuck hresponse hcalls)
    | some response =>
      rw [exchanges_cons_of_some _ _ _ _ _ _ hresponse, Exchange.last_cons, Exchange.last_cons]
      rw [List.append_cons]
      apply ih
      apply hconcat
      intro hnone
      rw [hresponse] at hnone
      exact absurd hnone (Option.some_ne_none _)

theorem exchanges_of_loggedIn {name : String} (h : st.login = .loggedIn name)
    : ∀ x ∈ exchanges r.handleLine (auth.consult backend) st past lines,
        x.calls = [] ∧ x.after.login = .loggedIn name := by
  refine forall_mem_exchanges (fun st _ => st.login = .loggedIn name) _ ?_ h lines
  intro st past line hlogin
  have hx := (effect_exchange hr auth backend st past line).of_loggedIn hlogin
  exact ⟨⟨hx.1, hx.2.2⟩, hx.2.2⟩

theorem not_loggedIn_of_refused
    : ∀ x ∈ exchanges r.handleLine (auth.consult backend) st past lines,
        ∀ call older, x.calls = [call] → x.outcome.calls = call :: older
          → backend older call ≠ .granted → x.after.currentUser? = none := by
  intro x hmem call older hcalls hpast hverdict
  obtain ⟨before, earlier, hx⟩ := exists_exchange_of_mem _ _ _ _ _ x hmem
  have heffect := effect_exchange hr auth backend before earlier x.request
  rw [← hx] at heffect
  cases heffect with
  | idle hidle _ _ _ =>
    rw [hidle] at hcalls
    exact absurd hcalls.symm (List.cons_ne_nil call [])
  | named _ _ hidle _ _ =>
    rw [hidle] at hcalls
    exact absurd hcalls.symm (List.cons_ne_nil call [])
  | granted _ _ _ hasked hgranted _ =>
    rw [hpast, List.cons.injEq] at hasked
    rw [hasked.1, hasked.2] at hverdict
    exact absurd hgranted hverdict
  | refused hbefore _ _ _ hafter =>
    unfold SessionState.currentUser?
    cases hafter with
    | inl hanonymous =>
      rw [hanonymous]
      rfl
    | inr hnone =>
      rw [Exchange.after_of_response? hnone, hbefore]
      rfl

end

/--
Who is logged in has named themself, and the next call was granted to them. It is the only one that
was, and the last one ever made.
-/
theorem exchanges_login_sound (r : Registry) (hr : r.LoginOnly) (auth : Authenticator)
    (backend : Backend) (lines : List String)
    : let xs := exchanges r.handleLine (auth.consult backend) .initial [] lines
      let st := Exchange.last (·.after) .initial xs
      let calls := (xs.flatMap (·.calls)).reverse
      (∀ name, st.currentUser? = some name →
        ∃ (before : List (Exchange String)) (user : Exchange String)
            (between : List (Exchange String)) (pass : Exchange String)
            (after : List (Exchange String)) (password : String) (earlier : List Call)
            (args args' : List String),
          xs = before ++ user :: between ++ pass :: after
            ∧
          r.route user.request = .invoke .user (name :: args)
            ∧
          (∀ x ∈ between, ∀ args, r.route x.request ≠ .invoke .user args)
            ∧
          r.route pass.request = .invoke .pass (password :: args')
            ∧
          calls = ⟨name, password⟩ :: earlier
            ∧
          backend earlier ⟨name, password⟩ = .granted
            ∧
          (∀ call older, call :: older <:+ earlier → backend older call ≠ .granted)
            ∧
          (∀ x ∈ user :: between, x.calls = [])
            ∧
          pass.calls = [⟨name, password⟩]
            ∧
          ∀ more,
            let rest := exchanges r.handleLine (auth.consult backend) st calls more
            (∀ x ∈ after ++ rest, x.calls = [])
              ∧
            (∀ x ∈ pass :: after ++ rest, x.after.login = .loggedIn name))
        ∧
      (∀ x ∈ xs, ∀ call older, x.calls = [call] → x.outcome.calls = call :: older
        → backend older call ≠ .granted → x.after.currentUser? = none) := by
  intro xs st calls
  constructor
  . intro name hname
    rw [SessionState.currentUser?_eq_some_iff] at hname
    have hlast : Exchange.last (·.outcome.calls) [] xs = calls := by
      rw [Exchange.last_calls_exchanges, List.append_nil]
    have hexplains : Explains r backend xs calls st.login ∨ ∃ user, st.login = .pending user := by
      rw [← hlast]
      exact explains_exchanges hr auth backend .initial [] lines []
        (.anonymous backend.ungranted_nil)
    rw [hname] at hexplains
    cases hexplains with
    | inl hexplains =>
      obtain ⟨before, pass, after, password, earlier, args', hxs, hearlier, hungranted, hnamed,
        hpass, hcalls, hverdict, hlogin, hquiet⟩ := hexplains.exists_grant
      obtain ⟨first, user, between, args, hbefore, huser, hbetween, hidle⟩ := hnamed
      refine ⟨first, user, between, pass, after, password, earlier, args, args', ?_, huser,
        hbetween, hpass, hearlier, hverdict, hungranted, hidle, hcalls, ?_⟩
      . rw [hxs, hbefore]
      . intro more rest
        have hrest := exchanges_of_loggedIn hr auth backend st calls more hname
        constructor
        . rw [List.forall_mem_append]
          exact ⟨hquiet, fun x hx => (hrest x hx).1⟩
        . rw [List.forall_mem_append]
          exact ⟨hlogin, fun x hx => (hrest x hx).2⟩
    | inr hpending =>
      obtain ⟨user, hpending⟩ := hpending
      contradiction
  . exact not_loggedIn_of_refused hr auth backend .initial [] lines

set_option maxRecDepth 10000 in
theorem exchanges_login_sound_second_name
    : let r := Registry.withLogin.register "NAME" .user
      let backend : Backend := .ofFunction fun call =>
        if call = ⟨"b", "p"⟩ then .granted else .crashed "down"
      let xs := exchanges r.handleLine (Authenticator.consult {} backend) .initial []
        ["USER a", "NAME b", "PASS p"]
      r.LoginOnly
        ∧
      (Exchange.last (·.after) .initial xs).currentUser? = some "b"
        ∧
      ∃ (before : List (Exchange String)) (user : Exchange String)
          (between : List (Exchange String)) (pass : Exchange String)
          (after : List (Exchange String)) (password : String) (args : List String),
        xs = before ++ user :: between ++ pass :: after
          ∧
        r.route user.request = .invoke .user ("b" :: args)
          ∧
        (∀ x ∈ user :: between, x.calls = [])
          ∧
        pass.calls = [⟨"b", password⟩] := by
  intro r backend xs
  have hr : r.LoginOnly := loginOnly_withLogin.register "NAME" (.inl rfl)
  have hfirst : exchange r.handleLine (Authenticator.consult {} backend) .initial [] "USER a"
      = ⟨"USER a", .initial, [], [.noted (.command "USER a")],
        .done ({ login := .pending "a" },
          .ofText .needPassword "User name ok, password required")⟩ := by
    dsimp only [r, backend]
    cbv
  have hsecond : exchange r.handleLine (Authenticator.consult {} backend)
      { login := .pending "a" } [] "NAME b"
      = ⟨"NAME b", { login := .pending "a" }, [], [.noted (.command "NAME b")],
        .done ({ login := .pending "b" },
          .ofText .needPassword "User name ok, password required")⟩ := by
    dsimp only [r, backend]
    cbv
  have hthird : exchange r.handleLine (Authenticator.consult {} backend)
      { login := .pending "b" } [] "PASS p"
      = ⟨"PASS p", { login := .pending "b" }, [⟨"b", "p"⟩],
        [.noted (.command "PASS p"), .called ⟨"b", "p"⟩, .noted ⟨.info, "User b logged in"⟩],
        .done ({ login := .loggedIn "b" }, .ofText .loggedIn "Password ok, continue")⟩ := by
    dsimp only [r, backend]
    cbv
  have hname : (Exchange.last (·.after) .initial xs).currentUser? = some "b" := by
    simp only [xs, exchanges, hfirst, hsecond, hthird, Exchange.response?, Exchange.after,
      Option.isSome_some, if_true, Exchange.last_cons, Exchange.last_nil]
    rfl
  obtain ⟨before, user, between, pass, after, password, _, args, _, hxs, huser, _, _, _, _, _,
    hidle, hpass, _⟩ := (exchanges_login_sound r hr {} backend _).1 "b" hname
  exact ⟨hr, hname, before, user, between, pass, after, password, args, hxs, huser, hidle, hpass⟩

end Registry

end FtpControl
