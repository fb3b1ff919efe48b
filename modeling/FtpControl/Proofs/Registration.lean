import FtpControl.Handler.Stock
import FtpControl.Proofs.Dispatch

/-!
This module contains the histories of registries. Two verbs are the same if they differ in nothing
but the case of ASCII letters. The handler that was registered last for a verb is the one that its
lines find, and the last fallback gets the lines of all other verbs.
-/

namespace FtpControl

namespace Text

def SameLetter (c d : Char) : Prop :=
  c = d
    ∨
  ('a' ≤ c ∧ c ≤ 'z' ∧ c.toNat = d.toNat + 32)
    ∨
  ('a' ≤ d ∧ d ≤ 'z' ∧ d.toNat = c.toNat + 32)

instance : DecidableRel SameLetter :=
  fun _ _ => inferInstanceAs (Decidable (_ ∨ _ ∨ _))

def SameVerb (s t : String) : Prop :=
  List.Forall₂ SameLetter s.toList t.toList

instance : DecidableRel SameVerb :=
  fun s t => inferInstanceAs (Decidable (List.Forall₂ SameLetter s.toList t.toList))

theorem toNat_toUpper (c : Char)
    : c.toUpper.toNat = if 97 ≤ c.toNat ∧ c.toNat ≤ 122 then c.toNat - 32 else c.toNat := by
  have hlower : c.isLower = true ↔ 97 ≤ c.toNat ∧ c.toNat ≤ 122 := by
    simp [Char.isLower, UInt32.le_iff_toNat_le]
  split
  . next h =>
    rw [Char.toUpper_eq_of_isLower (hlower.2 h), Char.toNat_ofNat, if_pos]
    exact .inl (by omega)
  . next h => rw [Char.toUpper_eq_of_not_isLower (mt hlower.1 h)]

theorem sameLetter_iff (c d : Char) : SameLetter c d ↔ c.toUpper = d.toUpper := by
  have hlower : ∀ e : Char, 'a' ≤ e ∧ e ≤ 'z' ↔ 97 ≤ e.toNat ∧ e.toNat ≤ 122 := by
    intro e
    simp [Char.le_def, UInt32.le_iff_toNat_le]
  unfold SameLetter
  rw [← and_assoc, ← and_assoc, hlower, hlower, ← Char.toNat_inj, ← Char.toNat_inj, toNat_toUpper,
    toNat_toUpper]
  split <;> split <;> omega

theorem sameVerb_iff {s t : String} : SameVerb s t ↔ s.toUpper = t.toUpper := by
  have hletter : SameLetter = fun c d => c.toUpper = d.toUpper :=
    funext₂ fun c d => propext (sameLetter_iff c d)
  unfold SameVerb String.toUpper
  rw [← String.toList_inj, String.toList_map, String.toList_map, ← List.forall₂_eq_eq_eq,
    List.forall₂_map_left_iff, List.forall₂_map_right_iff, hletter]

end Text

namespace Registry

inductive Edit where
  | register (verb : String) (handler : Handler)
  | setFallback (handler : Handler)

namespace Edit

def apply (r : Registry) : Edit → Registry
  | register verb h => r.register verb h
  | setFallback h => r.setFallback h

def verb? : Edit → Option String
  | register verb _ => some verb
  | setFallback _ => none

def handlerFor? (verb : String) : Edit → Option Handler
  | register registered h => if Text.SameVerb registered verb then some h else none
  | setFallback _ => none

def fallback? : Edit → Option Handler
  | register .. => none
  | setFallback h => some h

end Edit

inductive Start where
  | empty
  | withLogin

namespace Start

def registry : Start → Registry
  | empty => .empty
  | withLogin => .withLogin

def verbs : Start → List String
  | empty => []
  | withLogin => ["USER", "PASS"]

def handlerFor? (verb : String) : Start → Option Handler
  | empty => none
  | withLogin =>
    if Text.SameVerb "USER" verb then some .user
    else if Text.SameVerb "PASS" verb then some .pass
    else none

end Start

structure History where
  start : Start
  edits : List Edit

namespace History

def registry (past : History) : Registry :=
  past.edits.foldl Edit.apply past.start.registry

def verbs (past : History) : List String :=
  past.start.verbs ++ past.edits.filterMap Edit.verb?

def handlerFor? (past : History) (verb : String) : Option Handler :=
  (past.edits.reverse.findSome? (·.handlerFor? verb)).or (past.start.handlerFor? verb)

def fallback (past : History) : Handler :=
  (past.edits.reverse.findSome? Edit.fallback?).getD .unknown

end History

def enforce (h : Handler) (verb : String) (args : List String) (st : SessionState)
    : Action (SessionState × Response) :=
  if args.length < h.minArgs then
    .note ⟨.debug, s!"{verb} needs {h.minArgs} argument(s), got {args.length}"⟩
      (.done (st, .refusal "Syntax error, missing parameters"))
  else
    h.conduct args st

def History.answer (past : History) (token : String) (args : List String) (st : SessionState)
    : Action (SessionState × Response) :=
  match past.handlerFor? token with
  | some h => enforce h token.toUpper args st
  | none => past.fallback.conduct args st

variable (r : Registry) (past : History)

theorem getElem?_apply (edit : Edit) (verb : String)
    : (edit.apply r).handlers[verb.toUpper]?
        =
      (edit.handlerFor? verb).or r.handlers[verb.toUpper]? := by
  cases edit with
  | setFallback h => rfl
  | register registered h =>
    rw [Edit.apply, register, Std.TreeMap.getElem?_insert, Edit.handlerFor?]
    simp only [Std.LawfulEqCmp.compare_eq_iff_eq, Text.sameVerb_iff]
    split <;> rfl

theorem getElem?_foldl_apply (edits : List Edit) (verb : String)
    : (edits.foldl Edit.apply r).handlers[verb.toUpper]?
        =
      (edits.reverse.findSome? (·.handlerFor? verb)).or r.handlers[verb.toUpper]? := by
  induction edits generalizing r with
  | nil => rfl
  | cons edit edits ih =>
    rw [List.foldl_cons, ih, getElem?_apply, List.reverse_cons, List.findSome?_append,
      List.findSome?_singleton, Option.or_assoc]

theorem getElem?_start (start : Start) (verb : String)
    : start.registry.handlers[verb.toUpper]? = start.handlerFor? verb := by
  cases start with
  | empty => exact Std.TreeMap.getElem?_emptyc
  | withLogin =>
    have huser : "USER".toUpper = "USER" := by cbv
    have hpass : "PASS".toUpper = "PASS" := by cbv
    rw [Start.registry, getElem?_withLogin, Start.handlerFor?]
    simp only [Text.sameVerb_iff, huser, hpass]
    by_cases h : verb.toUpper = "PASS"
    . simp [h]
    . simp [h, Ne.symm h, eq_comm]

theorem getElem?_history (verb : String)
    : past.registry.handlers[verb.toUpper]? = past.handlerFor? verb := by
  unfold History.registry History.handlerFor?
  rw [getElem?_foldl_apply, getElem?_start]

theorem fallback_foldl_apply (edits : List Edit)
    : (edits.foldl Edit.apply r).fallback
        =
      (edits.reverse.findSome? Edit.fallback?).getD r.fallback := by
  induction edits generalizing r with
  | nil => rfl
  | cons edit edits ih =>
    rw [List.foldl_cons, ih, List.reverse_cons, List.findSome?_append, List.findSome?_singleton]
    cases edits.reverse.findSome? Edit.fallback? with
    | some h => rfl
    | none => cases edit <;> rfl

theorem fallback_history : past.registry.fallback = past.fallback := by
  unfold History.registry History.fallback
  rw [fallback_foldl_apply]
  cases past.start <;> rfl

theorem mem_handlers_foldl_apply (edits : List Edit) (key : String)
    : key ∈ (edits.foldl Edit.apply r).handlers
        ↔
      (∃ verb ∈ edits.filterMap Edit.verb?, verb.toUpper = key) ∨ key ∈ r.handlers := by
  induction edits generalizing r with
  | nil => simp
  | cons edit edits ih =>
    rw [List.foldl_cons, ih]
    cases edit with
    | setFallback h => rfl
    | register verb h =>
      simp only [Edit.apply, register, Std.TreeMap.mem_insert, Std.LawfulEqCmp.compare_eq_iff_eq]
      simp only [List.filterMap_cons, Edit.verb?, List.exists_mem_cons_iff]
      rw [or_left_comm, or_assoc]

theorem mem_handlers_start (start : Start) (key : String)
    : key ∈ start.registry.handlers ↔ ∃ verb ∈ start.verbs, verb.toUpper = key := by
  cases start with
  | empty => simp [Start.registry, Start.verbs, empty]
  | withLogin =>
    simp [Start.registry, Start.verbs, withLogin, register, empty, Std.TreeMap.mem_insert, or_comm]

theorem mem_verbs_history (key : String)
    : key ∈ past.registry.verbs ↔ ∃ verb ∈ past.verbs, verb.toUpper = key := by
  unfold verbs History.registry History.verbs
  rw [Std.TreeMap.mem_keys, mem_handlers_foldl_apply, mem_handlers_start]
  simp only [List.mem_append, or_and_right, exists_or]
  rw [or_comm]

theorem contains_history {token other : String} (h : Text.SameVerb token other)
    : past.registry.contains other = (past.handlerFor? token).isSome := by
  rw [contains_eq_isSome, ← Text.sameVerb_iff.1 h, getElem?_history]

theorem handleLine_history {line token : String} {args : List String} (st : SessionState)
    (hwords : Text.words line = token :: args)
    : past.registry.handleLine line st
        =
      .note (.command (Text.stripLineEnding line)) (past.answer token args st) := by
  have hfound := getElem?_history past token
  unfold handleLine History.answer
  cases hhandler : past.handlerFor? token with
  | none =>
    rw [hhandler] at hfound
    rw [route_of_fallback _ hwords hfound, Route.follow, fallback_history]
  | some h =>
    rw [hhandler] at hfound
    rw [route_of_registered _ hwords hfound]
    by_cases hless : args.length < h.minArgs
    . rw [if_pos hless, Route.follow]
      exact congrArg _ (if_pos hless).symm
    . rw [if_neg hless, Route.follow]
      exact congrArg _ (if_neg hless).symm

theorem dispatch_of_fits (cfg : SessionSettings) {bytes : List UInt8}
    (h : bytes.length ≤ cfg.maxCommandLength) (st : SessionState)
    : cfg.dispatch (.ofLine cfg.maxCommandLength bytes) st
        =
      cfg.registry.handleLine (Text.Utf8.decodeString bytes) st := by
  rw [Frame.ofLine, if_pos h, SessionSettings.dispatch]

theorem getElem?_register_of_not_sameVerb {verb token : String} (h : ¬ Text.SameVerb verb token)
    (handler : Handler)
    : (r.register verb handler).handlers[token.toUpper]? = r.handlers[token.toUpper]? := by
  have hedit := getElem?_apply r (.register verb handler) token
  rwa [Edit.handlerFor?, if_neg h, Option.none_or] at hedit

/--
The table is a map from verbs to the handlers that were registered last. The only handler that may
get fewer arguments than it needs is the fallback.
-/
theorem registry_keeps_last (past : History)
    : let r := past.registry
      (∀ line token args st,
        Text.words line = token :: args
          →
        r.handleLine line st
          =
        .note (.command (Text.stripLineEnding line)) (past.answer token args st))
        ∧
      (past.fallback.minArgs = 0
          →
        ∀ token args st,
          past.answer token args st
            =
          enforce ((past.handlerFor? token).getD past.fallback) token.toUpper args st)
        ∧
      (∀ (cfg : SessionSettings) bytes st,
        cfg.registry = r
          →
        bytes.length ≤ cfg.maxCommandLength
          →
        cfg.dispatch (.ofLine cfg.maxCommandLength bytes) st
          =
        r.handleLine (Text.Utf8.decodeString bytes) st)
        ∧
      (∀ token other,
        Text.SameVerb token other → r.contains other = (past.handlerFor? token).isSome)
        ∧
      r.verbs.Nodup
        ∧
      (∀ key, key ∈ r.verbs ↔ ∃ verb ∈ past.verbs, verb.toUpper = key)
        ∧
      (∀ verb handler token,
        ¬ Text.SameVerb verb token
          →
        let changed := r.register verb handler
        changed.resolve token.toUpper = r.resolve token.toUpper
          ∧
        changed.minArgs token.toUpper = r.minArgs token.toUpper
          ∧
        changed.contains token = r.contains token)
        ∧
      (∀ handler token,
        let changed := r.setFallback handler
        (r.contains token = true → changed.resolve token.toUpper = r.resolve token.toUpper)
          ∧
        changed.minArgs token.toUpper = r.minArgs token.toUpper
          ∧
        changed.contains token = r.contains token) := by
  intro r
  refine ⟨?_, ?_, ?_, ?_, ?_, ?_, ?_, ?_⟩
  . intro line token args st hwords
    exact handleLine_history past st hwords
  . intro hminArgs token args st
    unfold History.answer
    cases past.handlerFor? token with
    | some h => rfl
    | none => rw [Option.getD_none, enforce, hminArgs, if_neg (Nat.not_lt_zero _)]
  . intro cfg bytes st hregistry hfits
    rw [dispatch_of_fits cfg hfits, hregistry]
  . intro token other hsame
    exact contains_history past hsame
  . exact Std.TreeMap.nodup_keys
  . intro key
    exact mem_verbs_history past key
  . intro verb handler token hdifferent changed
    have hkept := getElem?_register_of_not_sameVerb r hdifferent handler
    refine ⟨?_, ?_, ?_⟩
    . unfold resolve
      rw [hkept]
      rfl
    . unfold minArgs
      rw [hkept]
    . rw [contains_eq_isSome, contains_eq_isSome, hkept]
  . intro handler token changed
    refine ⟨?_, rfl, rfl⟩
    intro hcontains
    rw [contains_eq_isSome, Option.isSome_iff_exists] at hcontains
    obtain ⟨registered, hfound⟩ := hcontains
    have hkept : changed.handlers[token.toUpper]? = some registered := hfound
    unfold resolve
    rw [hkept, hfound]
    rfl

set_option maxRecDepth 10000 in
theorem registry_keeps_last_site
    : let past : History :=
        { start := .withLogin
          edits := [
            .register "site" (.always (.ofText .serviceReady "old")),
            .register "Site" (.needing 1 (.echo .serviceReady)),
            .setFallback (.always (.ofText .serviceReady "fallback"))] }
      let r := past.registry
      let cfg : SessionSettings := { welcome := "hi", maxCommandLength := 16, registry := r }
      let bytes := Text.Utf8.encodeString "sITE x y\r\n"
      Text.words "sITE x y\r\n" = ["sITE", "x", "y"]
        ∧
      r.handleLine "sITE x y\r\n" .initial
        =
      .note (.command "sITE x y") (.done (.initial, .ofText .serviceReady "x|y"))
        ∧
      cfg.dispatch (.ofLine cfg.maxCommandLength bytes) .initial
        =
      r.handleLine (Text.Utf8.decodeString bytes) .initial
        ∧
      past.answer "noop" [] .initial
        =
      enforce (.always (.ofText .serviceReady "fallback")) "noop".toUpper [] .initial
        ∧
      r.contains "SiTe" = true
        ∧
      (r.register "sité" .unknown).resolve "sITE".toUpper = r.resolve "sITE".toUpper
        ∧
      (r.setFallback .unknown).resolve "sITE".toUpper = r.resolve "sITE".toUpper := by
  intro past r cfg bytes
  obtain ⟨hline, hfallback, hwire, hcontains, -, -, hregister, hsetFallback⟩ :=
    registry_keeps_last past
  have hwords : Text.words "sITE x y\r\n" = ["sITE", "x", "y"] := by cbv
  have hstrip : Text.stripLineEnding "sITE x y\r\n" = "sITE x y" := by cbv
  have hanswer : past.answer "sITE" ["x", "y"] .initial
      = .done (.initial, .ofText .serviceReady "x|y") := by
    dsimp only [past]
    cbv
  have hknown : r.contains "sITE" = true := by
    rw [hcontains "sITE" "sITE" (by decide)]
    dsimp only [past]
    cbv
  have hanyCase : r.contains "SiTe" = true := by
    rw [hcontains "sITE" "SiTe" (by decide)]
    dsimp only [past]
    cbv
  have hnone : past.handlerFor? "noop" = none := by
    dsimp only [past]
    cbv
  refine ⟨hwords, ?_, hwire cfg bytes .initial rfl (by decide), ?_, hanyCase, ?_, ?_⟩
  . rw [hline _ _ _ _ hwords, hstrip, hanswer]
  . rw [hfallback rfl, hnone]
    rfl
  . exact (hregister "sité" .unknown "sITE" (by decide)).1
  . exact (hsetFallback .unknown "sITE").1 hknown

set_option maxRecDepth 10000 in
theorem fallback_demand_not_enforced
    : let greedy : Handler := .needing 1 (.always (.ofText .serviceReady "ok"))
      let past : History := { start := .empty, edits := [.setFallback greedy] }
      Text.words "NOOP" = ["NOOP"]
        ∧
      past.handlerFor? "NOOP" = none
        ∧
      past.fallback = greedy
        ∧
      past.registry.handleLine "NOOP" .initial
        =
      .note (.command "NOOP") (.done (.initial, .ofText .serviceReady "ok"))
        ∧
      past.registry.handleLine "NOOP" .initial
        ≠
      .note (.command "NOOP") (enforce past.fallback "NOOP" [] .initial) := by
  intro greedy past
  have hwords : Text.words "NOOP" = ["NOOP"] := by cbv
  have hstrip : Text.stripLineEnding "NOOP" = "NOOP" := by cbv
  have hrun : past.registry.handleLine "NOOP" .initial
      = .note (.command "NOOP") (.done (.initial, .ofText .serviceReady "ok")) := by
    rw [handleLine_history past _ hwords, hstrip]
    rfl
  refine ⟨hwords, rfl, rfl, hrun, ?_⟩
  rw [hrun]
  intro hsame
  rw [Action.note.injEq] at hsame
  have henforced : enforce past.fallback "NOOP" [] .initial
      = .note ⟨.debug, "NOOP needs 1 argument(s), got 0"⟩
          (.done (.initial, .refusal "Syntax error, missing parameters")) := by
    dsimp only [past, greedy]
    cbv
  rw [henforced] at hsame
  cases hsame.2

end Registry

end FtpControl
