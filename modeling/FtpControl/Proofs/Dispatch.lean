import FtpControl.Proofs.Exchange
import FtpControl.Proofs.Framing
import FtpControl.Proofs.Routing

/-!
This module contains the theory of dispatch: a line from the channel is either refused, and then
nothing runs, or it runs one handler, once, with all tokens behind the verb. Lines that are too
long never run a handler of their verb.
-/

namespace FtpControl

namespace Action

inductive Refuses (st : SessionState) : Action (SessionState × Response) → Prop
  | done (text : String) : Refuses st (.done (st, .refusal text))
  | note (n : Note) {next : Action (SessionState × Response)} (h : Refuses st next)
    : Refuses st (.note n next)

theorem Refuses.run {st : SessionState} {action : Action (SessionState × Response)}
    (h : action.Refuses st) (oracle : Oracle) (past : List Call)
    : ∃ (notes : List Note) (text : String),
        action.run oracle past = ⟨past, notes.map .noted, .done (st, .refusal text)⟩ := by
  induction h with
  | done text => exact ⟨[], text, rfl⟩
  | note n h ih =>
    obtain ⟨notes, text, hrun⟩ := ih
    refine ⟨n :: notes, text, ?_⟩
    rw [Action.run, hrun]
    rfl

end Action

theorem exchange_of_refuses {ρ : Type}
    {answer : ρ → SessionState → Action (SessionState × Response)} {request : ρ}
    {st : SessionState} (h : (answer request st).Refuses st) (oracle : Action.Oracle)
    (past : List Call)
    : let x := exchange answer oracle st past request
      x.calls = []
        ∧
      x.outcome.calls = past
        ∧
      x.after = st
        ∧
      ∃ text, x.response? = some (.refusal text) := by
  intro x
  obtain ⟨notes, text, hrun⟩ := h.run oracle past
  have houtcome : x.outcome = ⟨past, notes.map .noted, .done (st, .refusal text)⟩ := hrun
  have hstop : x.outcome.stop = .done (st, .refusal text) := by
    rw [houtcome]
  refine ⟨?_, ?_, Exchange.after_of_done hstop, text, Exchange.response?_of_done hstop⟩
  . unfold Exchange.calls
    rw [houtcome, List.filterMap_map]
    exact List.filterMap_eq_nil_iff.2 fun _ _ => rfl
  . rw [houtcome]

namespace Registry

def Route.invocation? : Route → Option (Handler × List String)
  | invoke h args => some (h, args)
  | _ => none

variable (r : Registry) {line token : String} {args : List String}

theorem contains_eq_isSome (verb : String)
    : r.contains verb = r.handlers[verb.toUpper]?.isSome := by
  unfold contains
  rw [Std.TreeMap.isSome_getElem?_eq_contains]

theorem route_of_fallback (hwords : Text.words line = token :: args)
    (hfound : r.handlers[token.toUpper]? = none) : r.route line = .invoke r.fallback args := by
  rw [r.route_of_token hwords]
  unfold minArgs resolve
  rw [hfound]
  rfl

theorem route_of_registered {h : Handler} (hwords : Text.words line = token :: args)
    (hfound : r.handlers[token.toUpper]? = some h)
    : r.route line
        =
      if args.length < h.minArgs then
        .incomplete token.toUpper h.minArgs args.length
      else
        .invoke h args := by
  rw [r.route_of_token hwords]
  unfold minArgs resolve
  rw [hfound]
  rfl

theorem handleLine_of_invocation {h : Handler} (st : SessionState)
    (hroute : (r.route line).invocation? = some (h, args))
    : r.handleLine line st = .note (.command (Text.stripLineEnding line)) (h.conduct args st) := by
  unfold handleLine
  cases heq : r.route line with
  | blank =>
    rw [heq] at hroute
    contradiction
  | incomplete verb required given =>
    rw [heq] at hroute
    contradiction
  | invoke found given =>
    rw [heq, Route.invocation?, Option.some.injEq, Prod.mk.injEq] at hroute
    rw [Route.follow, hroute.1, hroute.2]

theorem refuses_handleLine (st : SessionState) (hroute : (r.route line).invocation? = none)
    : (r.handleLine line st).Refuses st := by
  unfold handleLine
  apply Action.Refuses.note
  cases heq : r.route line with
  | blank => exact .done _
  | incomplete verb required given => exact .note _ (.done _)
  | invoke found given =>
    rw [heq] at hroute
    contradiction

end Registry

namespace SessionSettings

variable (cfg : SessionSettings) {frame : Frame} {line : List UInt8} {token : String}
  {args : List String}

def text : Frame → String
  | .line bytes => Text.Utf8.decodeString bytes
  | .overLong kept => Text.Utf8.decodeString kept

@[simp]
theorem text_line (bytes : List UInt8) : text (.line bytes) = Text.Utf8.decodeString bytes := rfl

@[simp]
theorem text_overLong (kept : List UInt8)
    : text (.overLong kept) = Text.Utf8.decodeString kept := rfl

def invocation? (frame : Frame) : Option (Handler × List String) :=
  match frame with
  | .line _ => (cfg.registry.route (text frame)).invocation?
  | .overLong _ =>
    if (Text.words (text frame)).head?.any cfg.registry.contains then
      none
    else
      (cfg.registry.route (text frame)).invocation?

theorem invocation?_line (bytes : List UInt8)
    : cfg.invocation? (.line bytes)
        =
      (cfg.registry.route (Text.Utf8.decodeString bytes)).invocation? := rfl

theorem invocation?_overLong (kept : List UInt8)
    : cfg.invocation? (.overLong kept)
        =
      if (Text.words (Text.Utf8.decodeString kept)).head?.any cfg.registry.contains then
        none
      else
        (cfg.registry.route (Text.Utf8.decodeString kept)).invocation? := rfl

theorem dispatch_of_invocation {h : Handler} (hinvocation : cfg.invocation? frame = some (h, args))
    (st : SessionState)
    : cfg.dispatch frame st
        =
      .note (.command (Text.stripLineEnding (text frame))) (h.conduct args st) := by
  cases frame with
  | line bytes =>
    rw [invocation?_line] at hinvocation
    exact cfg.registry.handleLine_of_invocation st hinvocation
  | overLong kept =>
    rw [invocation?_overLong] at hinvocation
    split at hinvocation
    . contradiction
    . next hverb =>
      rw [dispatch, Registry.handleOverLong_of_not_contains]
      . exact cfg.registry.handleLine_of_invocation st hinvocation
      . intro token htoken
        rw [htoken] at hverb
        simpa using hverb

theorem refuses_dispatch (hinvocation : cfg.invocation? frame = none) (st : SessionState)
    : (cfg.dispatch frame st).Refuses st := by
  cases frame with
  | line bytes =>
    rw [invocation?_line] at hinvocation
    exact cfg.registry.refuses_handleLine st hinvocation
  | overLong kept =>
    rw [invocation?_overLong] at hinvocation
    rw [dispatch]
    cases hwords : Text.words (Text.Utf8.decodeString kept) with
    | nil =>
      rw [hwords] at hinvocation
      rw [Registry.handleOverLong_of_not_contains _ _ _ (by simp [hwords])]
      exact cfg.registry.refuses_handleLine st hinvocation
    | cons token args =>
      cases hcontains : cfg.registry.contains token with
      | true =>
        rw [cfg.registry.handleOverLong_of_contains _ _ hwords hcontains]
        exact .note _ (.done _)
      | false =>
        rw [hwords, List.head?_cons, Option.any_some, hcontains] at hinvocation
        rw [Registry.handleOverLong_of_not_contains _ _ _ (by simp [hwords, hcontains])]
        exact cfg.registry.refuses_handleLine st hinvocation

theorem text_ofLine (limit : Nat) (line : List UInt8)
    : text (.ofLine limit line) = Text.Utf8.decodeString (line.take limit) := by
  unfold Frame.ofLine
  split
  . next hle => rw [List.take_of_length_le hle, text]
  . rfl

theorem invocation?_of_blank (hwords : Text.words (text frame) = [])
    : cfg.invocation? frame = none := by
  have hroute := cfg.registry.route_of_blank hwords
  cases frame with
  | line bytes =>
    rw [text_line] at hroute
    rw [invocation?_line, hroute]
    rfl
  | overLong kept =>
    rw [text_overLong] at hroute
    rw [invocation?_overLong, hroute]
    split <;> rfl

theorem invocation?_of_fallback (hwords : Text.words (text frame) = token :: args)
    (hfound : cfg.registry.handlers[token.toUpper]? = none)
    : cfg.invocation? frame = some (cfg.registry.fallback, args) := by
  have hroute := cfg.registry.route_of_fallback hwords hfound
  cases frame with
  | line bytes =>
    rw [text_line] at hroute
    rw [invocation?_line, hroute]
    rfl
  | overLong kept =>
    rw [text_overLong] at hwords hroute
    rw [invocation?_overLong, hwords, List.head?_cons, Option.any_some]
    rw [Registry.contains_eq_isSome, hfound, hroute]
    rfl

theorem invocation?_line_of_registered {bytes : List UInt8} {h : Handler}
    (hwords : Text.words (Text.Utf8.decodeString bytes) = token :: args)
    (hfound : cfg.registry.handlers[token.toUpper]? = some h)
    : cfg.invocation? (.line bytes)
        =
      if args.length < h.minArgs then none else some (h, args) := by
  rw [invocation?_line, cfg.registry.route_of_registered hwords hfound]
  split <;> rfl

theorem invocation?_overLong_of_registered {kept : List UInt8} {h : Handler}
    (hwords : Text.words (Text.Utf8.decodeString kept) = token :: args)
    (hfound : cfg.registry.handlers[token.toUpper]? = some h)
    : cfg.invocation? (.overLong kept) = none := by
  rw [invocation?_overLong, hwords, List.head?_cons, Option.any_some]
  rw [Registry.contains_eq_isSome, hfound]
  rfl

theorem invocation?_ofLine_of_registered {h : Handler}
    (hwords : Text.words (Text.Utf8.decodeString (line.take cfg.maxCommandLength)) = token :: args)
    (hfound : cfg.registry.handlers[token.toUpper]? = some h)
    : cfg.invocation? (.ofLine cfg.maxCommandLength line)
        =
      if cfg.maxCommandLength < line.length ∨ args.length < h.minArgs then
        none
      else
        some (h, args) := by
  unfold Frame.ofLine
  split
  . next hle =>
    rw [List.take_of_length_le hle] at hwords
    rw [cfg.invocation?_line_of_registered hwords hfound]
    simp only [Nat.not_lt.2 hle, false_or]
  . next hlong =>
    rw [cfg.invocation?_overLong_of_registered hwords hfound, if_pos (.inl (Nat.lt_of_not_le hlong))]

/--
A line without a token, a line whose verb is registered and lacks arguments, and a long line whose
verb is registered run nothing. Every other line runs one handler, and that once.
-/
theorem dispatch_ofLine (cfg : SessionSettings) (line : List UInt8)
    : let kept := Text.Utf8.decodeString (line.take cfg.maxCommandLength)
      let frame := Frame.ofLine cfg.maxCommandLength line
      (Text.words kept = []
          ∨
        (∃ token args h,
          Text.words kept = token :: args
            ∧
          cfg.registry.handlers[token.toUpper]? = some h
            ∧
          (cfg.maxCommandLength < line.length ∨ args.length < h.minArgs))
          →
        cfg.invocation? frame = none
          ∧
        ∀ oracle st past,
          let x := exchange cfg.dispatch oracle st past frame
          (cfg.dispatch frame st).Refuses st
            ∧
          x.calls = []
            ∧
          x.outcome.calls = past
            ∧
          x.after = st
            ∧
          ∃ response,
            x.response? = some response
              ∧
            response.reply.code.number = 500
              ∧
            response.closes = false)
        ∧
      (∀ token args,
        Text.words kept = token :: args
          →
        cfg.registry.handlers[token.toUpper]? = none
          →
        cfg.invocation? frame = some (cfg.registry.fallback, args))
        ∧
      (∀ token args h,
        Text.words kept = token :: args
          →
        cfg.registry.handlers[token.toUpper]? = some h
          →
        line.length ≤ cfg.maxCommandLength
          →
        h.minArgs ≤ args.length
          →
        cfg.invocation? frame = some (h, args))
        ∧
      (∀ h args,
        cfg.invocation? frame = some (h, args)
          →
        ∀ st,
          cfg.dispatch frame st
            =
          .note (.command (Text.stripLineEnding kept)) (h.conduct args st)) := by
  intro kept frame
  have htext : text frame = kept := text_ofLine _ _
  refine ⟨?_, ?_, ?_, ?_⟩
  . intro hrejected
    have hinvocation : cfg.invocation? frame = none := by
      rcases hrejected with hblank | ⟨token, args, h, hwords, hfound, hrefused⟩
      . rw [← htext] at hblank
        exact cfg.invocation?_of_blank hblank
      . rw [cfg.invocation?_ofLine_of_registered hwords hfound, if_pos hrefused]
    refine ⟨hinvocation, ?_⟩
    intro oracle st past
    have hrefuses := cfg.refuses_dispatch hinvocation st
    obtain ⟨hcalls, hpast, hafter, reason, hresponse⟩ := exchange_of_refuses hrefuses oracle past
    exact ⟨hrefuses, hcalls, hpast, hafter, _, hresponse, rfl, rfl⟩
  . intro token args hwords hfound
    rw [← htext] at hwords
    exact cfg.invocation?_of_fallback hwords hfound
  . intro token args h hwords hfound hlength hargs
    rw [cfg.invocation?_ofLine_of_registered hwords hfound, if_neg (by omega)]
  . intro h args hinvocation st
    rw [← htext]
    exact cfg.dispatch_of_invocation hinvocation st

set_option maxRecDepth 10000 in
theorem dispatch_ofLine_site
    : let site : Handler :=
        { minArgs := 1, conduct := fun _ st => .done (st.begin "a", .ofText .serviceReady "ok") }
      let cfg : SessionSettings :=
        { welcome := "hi", maxCommandLength := 16, registry := Registry.empty.register "SITE" site }
      let short := Text.Utf8.encodeString "site\n"
      let enough := Text.Utf8.encodeString "site x y\n"
      let long := Text.Utf8.encodeString "Site 0123456789abcdef\n"
      let other := Text.Utf8.encodeString "noop 0123456789abcdef\n"
      (∀ line ∈ [short, long],
        cfg.invocation? (.ofLine 16 line) = none
          ∧
        (exchange cfg.dispatch .later .initial [] (.ofLine 16 line)).after = .initial)
        ∧
      cfg.invocation? (.ofLine 16 enough) = some (site, ["x", "y"])
        ∧
      cfg.invocation? (.ofLine 16 other) = some (.unknown, ["0123456789a"]) := by
  intro site cfg short enough long other
  have hfound : ∀ verb, cfg.registry.handlers[verb]? = if verb = "SITE" then some site else none := by
    intro verb
    have hsite : "SITE".toUpper = "SITE" := by cbv
    dsimp only [cfg]
    unfold Registry.register Registry.empty
    rw [hsite, Std.TreeMap.getElem?_insert]
    simp only [Std.LawfulEqCmp.compare_eq_iff_eq, Std.TreeMap.getElem?_emptyc, eq_comm (b := verb)]
  have hshort : Text.words (Text.Utf8.decodeString (short.take 16)) = ["site"] := by
    dsimp only [short]
    cbv
  have henough : Text.words (Text.Utf8.decodeString (enough.take 16)) = ["site", "x", "y"] := by
    dsimp only [enough]
    cbv
  have hlong : Text.words (Text.Utf8.decodeString (long.take 16)) = ["Site", "0123456789a"] := by
    dsimp only [long]
    cbv
  have hother : Text.words (Text.Utf8.decodeString (other.take 16)) = ["noop", "0123456789a"] := by
    dsimp only [other]
    cbv
  have hsite : "site".toUpper = "SITE" ∧ "Site".toUpper = "SITE" := by constructor <;> cbv
  have hnoop : "noop".toUpper = "NOOP" := by cbv
  have hregistered : cfg.registry.handlers["SITE"]? = some site := hfound "SITE"
  have hunregistered : cfg.registry.handlers["NOOP"]? = none := hfound "NOOP"
  rw [← hsite.1] at hregistered
  refine ⟨?_, ?_, ?_⟩
  . rw [List.forall_mem_cons, List.forall_mem_singleton]
    have hrefused := (dispatch_ofLine cfg short).1
      (.inr ⟨_, _, _, hshort, hregistered, .inr (by decide)⟩)
    rw [hsite.1, ← hsite.2] at hregistered
    have htooLong := (dispatch_ofLine cfg long).1
      (.inr ⟨_, _, _, hlong, hregistered, .inl (by decide)⟩)
    exact ⟨⟨hrefused.1, (hrefused.2 .later .initial []).2.2.2.1⟩,
      ⟨htooLong.1, (htooLong.2 .later .initial []).2.2.2.1⟩⟩
  . exact (dispatch_ofLine cfg enough).2.2.1 _ _ _ henough hregistered (by decide) (by decide)
  . rw [← hnoop] at hunregistered
    exact (dispatch_ofLine cfg other).2.1 _ _ hother hunregistered

end SessionSettings

end FtpControl
