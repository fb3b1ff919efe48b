import FtpControl.Registry
import FtpControl.Proofs.Grammar

/-!
This module contains the theory of routing: the first token of a line alone decides which handler
the line finds, and the other tokens are what it gets.
-/

namespace FtpControl

namespace Registry

variable (r : Registry) {line token : String} {args : List String}

theorem route_of_blank (h : Text.words line = []) : r.route line = .blank := by
  unfold route
  rw [Request.parse_of_blank h]

theorem route_of_token (h : Text.words line = token :: args)
    : r.route line
        =
      if args.length < r.minArgs token.toUpper then
        .incomplete token.toUpper (r.minArgs token.toUpper) args.length
      else
        .invoke (r.resolve token.toUpper) args := by
  unfold route
  rw [Request.parse_of_words h]
  by_cases hless : args.length < r.minArgs token.toUpper
  . rw [if_pos hless, if_pos hless]
  . rw [if_neg hless, if_neg hless]

theorem invoke_of_route {h : Handler} (hroute : r.route line = .invoke h args)
    : (∃ verb : String, r.handlers[verb]? = some h ∧ h.minArgs ≤ args.length) ∨ h = r.fallback := by
  cases hwords : Text.words line with
  | nil =>
    rw [r.route_of_blank hwords] at hroute
    contradiction
  | cons token found =>
    rw [r.route_of_token hwords] at hroute
    split at hroute
    . contradiction
    . next hless =>
      rw [Route.invoke.injEq] at hroute
      obtain ⟨hresolve, rfl⟩ := hroute
      unfold resolve at hresolve
      unfold minArgs at hless
      cases hfound : r.handlers[token.toUpper]? with
      | none =>
        rw [hfound] at hresolve
        exact .inr hresolve.symm
      | some registered =>
        rw [hfound] at hresolve hless
        rw [Option.getD_some] at hresolve
        subst hresolve
        exact .inl ⟨token.toUpper, hfound, Nat.not_lt.1 hless⟩

theorem contains_toUpper (verb : String) : r.contains verb.toUpper = r.contains verb := by
  unfold contains
  rw [Text.toUpper_toUpper]

variable (limit : Nat) (st : SessionState)

theorem handleOverLong_of_contains (h : Text.words line = token :: args)
    (hcontains : r.contains token = true)
    : r.handleOverLong limit line st
        =
      .note ⟨.warn, s!"{token.toUpper} longer than {limit} bytes rejected"⟩
        (.done (st, .refusal "Command too long")) := by
  unfold handleOverLong
  rw [h, List.head?_cons, Option.map_some]
  dsimp only
  rw [contains_toUpper, if_pos hcontains]

theorem handleOverLong_of_not_contains
    (h : ∀ token, (Text.words line).head? = some token → r.contains token = false)
    : r.handleOverLong limit line st = r.handleLine line st := by
  unfold handleOverLong
  split
  . rfl
  . next verb hverb =>
    rw [Option.map_eq_some_iff] at hverb
    obtain ⟨token, htoken, rfl⟩ := hverb
    rw [contains_toUpper, h token htoken]
    rfl

theorem getElem?_withLogin (verb : String)
    : Registry.withLogin.handlers[verb]?
        =
      if verb = "PASS" then
        some .pass
      else if verb = "USER" then
        some .user
      else
        none := by
  have huser : "USER".toUpper = "USER" := by cbv
  have hpass : "PASS".toUpper = "PASS" := by cbv
  unfold withLogin register empty
  rw [huser, hpass, Std.TreeMap.getElem?_insert, Std.TreeMap.getElem?_insert]
  simp only [Std.LawfulEqCmp.compare_eq_iff_eq, Std.TreeMap.getElem?_emptyc, eq_comm (b := verb)]

theorem minArgs_withLogin (verb : String)
    : Registry.withLogin.minArgs verb = if verb = "USER" ∨ verb = "PASS" then 1 else 0 := by
  unfold minArgs
  rw [getElem?_withLogin]
  by_cases hpass : verb = "PASS"
  . rw [if_pos hpass, if_pos (.inr hpass)]
    rfl
  . by_cases huser : verb = "USER"
    . rw [if_neg hpass, if_pos huser, if_pos (.inl huser)]
      rfl
    . rw [if_neg hpass, if_neg huser, if_neg (not_or.2 ⟨huser, hpass⟩)]

theorem resolve_withLogin (verb : String)
    : Registry.withLogin.resolve verb
        =
      if verb = "USER" then
        .user
      else if verb = "PASS" then
        .pass
      else
        .unknown := by
  unfold resolve
  rw [getElem?_withLogin]
  by_cases huser : verb = "USER"
  . rw [if_neg (by simp [huser]), if_pos huser, if_pos huser]
    rfl
  . rw [if_neg huser, if_neg huser]
    by_cases hpass : verb = "PASS"
    . rw [if_pos hpass, if_pos hpass]
      rfl
    . rw [if_neg hpass, if_neg hpass]
      rfl

theorem contains_withLogin (verb : String)
    : Registry.withLogin.contains verb = true
        ↔
      verb.toUpper = "USER" ∨ verb.toUpper = "PASS" := by
  unfold contains
  rw [← Std.TreeMap.isSome_getElem?_eq_contains, getElem?_withLogin]
  by_cases hpass : verb.toUpper = "PASS"
  . simp [hpass]
  . by_cases huser : verb.toUpper = "USER"
    . simp [huser]
    . simp [hpass, huser]

end Registry

end FtpControl
