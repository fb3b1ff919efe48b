import FtpControl.Proofs.Decoding
import FtpControl.Proofs.Dispatch

/-!
This module contains the theory of lines that are cut. Only the first bytes of a line that is too
long are known, and its verb is looked for among them: where a blank ends it there it is the verb
of the whole line, and otherwise it is no more than how that one begins.
-/

namespace FtpControl

namespace Text.Utf8

-- A cut may go through a character, of which a replacement is all that is left in front of it.
theorem exists_decode_take (line : List UInt8) (limit : Nat)
    : ∃ settled mark rest,
        decode (line.take limit) = settled ++ mark
          ∧
        decode line = settled ++ rest
          ∧
        (mark = [] ∨ mark = [replacement]) := by
  obtain ⟨settled, next, hdecode⟩ := exists_decodeFrom_append .start (line.take limit)
  have hkept := hdecode []
  have hwhole := hdecode (line.drop limit)
  rw [List.append_nil] at hkept
  rw [List.take_append_drop] at hwhole
  exact ⟨settled, finish next, _, hkept, hwhole, finish_eq next⟩

theorem isBlank_of_mem_mark {mark : List Char} (h : mark = [] ∨ mark = [replacement])
    : ∀ c ∈ mark, isBlank c = false := by
  rcases h with rfl | rfl
  . simp
  . simp [isBlank_replacement]

section

variable {line : List UInt8} {limit : Nat}

theorem head?_words_decodeString {token : String}
    : (words (decodeString line)).head? = some token
        ↔
      token.toList = firstToken (decode line) ∧ firstToken (decode line) ≠ [] := by
  rw [head?_words_eq_some_iff, decodeString, String.toList_ofList]

theorem firstToken_decode_of_firstEnds (h : firstEnds (decode (line.take limit)) = true)
    : firstToken (decode line) = firstToken (decode (line.take limit)) := by
  obtain ⟨settled, mark, rest, hkept, hwhole, hmark⟩ := exists_decode_take line limit
  rw [hkept, firstEnds_append_of_not_blank (isBlank_of_mem_mark hmark)] at h
  rw [hkept, hwhole, firstToken_append_of_firstEnds h, firstToken_append_of_firstEnds h]

theorem firstToken_decode_of_cut (h : firstEnds (decode (line.take limit)) = false)
    : ∃ front,
        front <+: firstToken (decode line)
          ∧
        (firstToken (decode (line.take limit)) = front
          ∨ firstToken (decode (line.take limit)) = front ++ [replacement]) := by
  obtain ⟨settled, mark, rest, hkept, hwhole, hmark⟩ := exists_decode_take line limit
  have hclean := isBlank_of_mem_mark hmark
  rw [hkept, firstEnds_append_of_not_blank hclean] at h
  refine ⟨firstToken settled, ?_, ?_⟩
  . rw [hwhole]
    apply firstToken_isPrefix
  . rw [hkept, firstToken_append_of_not_blank hclean h]
    rcases hmark with rfl | rfl
    . exact .inl (List.append_nil _)
    . exact .inr rfl

end

end Text.Utf8

namespace Exchange

variable {ρ : Type}

structure Refused (x : Exchange ρ) (text : String) : Prop where
  response?_eq : x.response? = some (.refusal text)
  after_eq : x.after = x.before
  calls_eq : x.calls = []

theorem Refused.text_eq {x : Exchange ρ} {first second : String} (hfirst : x.Refused first)
    (hsecond : x.Refused second) : first = second := by
  have heq := hfirst.response?_eq.symm.trans hsecond.response?_eq
  simpa [Response.refusal, Response.ofText] using heq

theorem refused_of_note {answer : ρ → SessionState → Action (SessionState × Response)}
    {request : ρ} {st : SessionState} {n : Note} {text : String}
    (h : answer request st = .note n (.done (st, .refusal text))) (oracle : Action.Oracle)
    (past : List Call) : (exchange answer oracle st past request).Refused text := by
  have hrefuses : (answer request st).Refuses st := by
    rw [h]
    exact .note n (.done text)
  obtain ⟨hcalls, _, hafter, _⟩ := exchange_of_refuses hrefuses oracle past
  refine ⟨?_, hafter, hcalls⟩
  apply response?_of_done
  unfold exchange
  rw [h]
  rfl

end Exchange

namespace Registry

variable (r : Registry) {line token : String} {args : List String}

def overLongText (verb : String) : String :=
  if r.contains verb then "Command too long" else "Command not found"

theorem overLongText_inj {first second : String}
    : r.overLongText first = r.overLongText second ↔ r.contains first = r.contains second := by
  unfold overLongText
  cases r.contains first <;> cases r.contains second <;> simp

theorem handleLine_of_unregistered (hfallback : r.fallback = .unknown)
    (hwords : Text.words line = token :: args) (hcontains : r.contains token = false)
    (st : SessionState)
    : r.handleLine line st
        =
      .note (.command (Text.stripLineEnding line)) (.done (st, .refusal "Command not found")) := by
  rw [contains_eq_isSome, Option.isSome_eq_false_iff, Option.isNone_iff_eq_none] at hcontains
  have hinvocation : (r.route line).invocation? = some (.unknown, args) := by
    rw [r.route_of_fallback hwords hcontains, hfallback]
    rfl
  exact r.handleLine_of_invocation st hinvocation

theorem exists_handleOverLong_eq (hfallback : r.fallback = .unknown)
    (hwords : Text.words line = token :: args) (limit : Nat) (st : SessionState)
    : ∃ n,
        r.handleOverLong limit line st
          =
        .note n (.done (st, .refusal (r.overLongText token))) := by
  unfold overLongText
  cases hcontains : r.contains token with
  | true =>
    rw [r.handleOverLong_of_contains limit st hwords hcontains]
    exact ⟨_, rfl⟩
  | false =>
    have hhead : ∀ found, (Text.words line).head? = some found → r.contains found = false := by
      simp [hwords, hcontains]
    rw [r.handleOverLong_of_not_contains limit st hhead,
      r.handleLine_of_unregistered hfallback hwords hcontains]
    exact ⟨_, rfl⟩

end Registry

namespace SessionSettings

def Refuses (cfg : SessionSettings) (line : List UInt8) (text : String) : Prop :=
  ∀ oracle st past,
    (exchange cfg.dispatch oracle st past (.ofLine cfg.maxCommandLength line)).Refused text

def withLimit (cfg : SessionSettings) (limit : Nat) : SessionSettings :=
  { cfg with maxCommandLength := limit }

variable {cfg : SessionSettings} {line : List UInt8} {token : String}

theorem Refuses.text_eq {first second : String} (hfirst : cfg.Refuses line first)
    (hsecond : cfg.Refuses line second) : first = second :=
  (hfirst .later .initial []).text_eq (hsecond .later .initial [])

theorem refuses_of_long (hfallback : cfg.registry.fallback = .unknown)
    (hlong : cfg.maxCommandLength < line.length)
    (hkept : (Text.words (Text.Utf8.decodeString (line.take cfg.maxCommandLength))).head?
      = some token)
    : cfg.Refuses line (cfg.registry.overLongText token) := by
  obtain ⟨args, hwords⟩ := List.head?_eq_some_iff.1 hkept
  intro oracle st past
  obtain ⟨n, hanswer⟩ :=
    cfg.registry.exists_handleOverLong_eq hfallback hwords cfg.maxCommandLength st
  rw [Frame.ofLine, if_neg (Nat.not_le.2 hlong)]
  apply Exchange.refused_of_note
  exact hanswer

theorem refuses_of_short (hfallback : cfg.registry.fallback = .unknown)
    (hshort : line.length ≤ cfg.maxCommandLength)
    (hwhole : (Text.words (Text.Utf8.decodeString line)).head? = some token)
    (hcontains : cfg.registry.contains token = false)
    : cfg.Refuses line "Command not found" := by
  obtain ⟨args, hwords⟩ := List.head?_eq_some_iff.1 hwhole
  intro oracle st past
  rw [Frame.ofLine, if_pos hshort]
  apply Exchange.refused_of_note (n := .command _)
  exact cfg.registry.handleLine_of_unregistered hfallback hwords hcontains st

/--
A line that is too long is answered by the first token of the bytes that are kept, and so by its
own verb if a blank ends the verb there. A verb that goes on behind the cut is taken for what is
left of it, and the answer is the one it should get only if both are registered or neither is.
-/
theorem refuses_overLong (cfg : SessionSettings) (hfallback : cfg.registry.fallback = .unknown)
    (line : List UInt8) (hlong : cfg.maxCommandLength < line.length) (token : String)
    (hkept : (Text.words (Text.Utf8.decodeString (line.take cfg.maxCommandLength))).head?
      = some token)
    : let r := cfg.registry
      let kept := Text.Utf8.decode (line.take cfg.maxCommandLength)
      let whole := Text.Utf8.decodeString line
      cfg.Refuses line (r.overLongText token)
        ∧
      (Text.firstEnds kept = true → (Text.words whole).head? = some token)
        ∧
      ∀ own,
        (Text.words whole).head? = some own
          →
        (cfg.Refuses line (r.overLongText own) ↔ r.contains token = r.contains own)
          ∧
        (r.contains own = false
          →
        ∀ limit,
          line.length ≤ limit
            →
          (cfg.withLimit limit).Refuses line "Command not found")
          ∧
        (Text.firstEnds kept = false
          →
        ∃ front,
          front <+: own.toList
            ∧
          (token.toList = front ∨ token.toList = front ++ [Text.Utf8.replacement])) := by
  intro r kept whole
  have hrefuses := refuses_of_long hfallback hlong hkept
  refine ⟨hrefuses, ?_, ?_⟩
  . intro hends
    rw [Text.Utf8.head?_words_decodeString, Text.Utf8.firstToken_decode_of_firstEnds hends]
    exact Text.Utf8.head?_words_decodeString.1 hkept
  . intro own hown
    refine ⟨?_, ?_, ?_⟩
    . rw [← r.overLongText_inj]
      constructor
      . exact hrefuses.text_eq
      . intro htext
        rwa [← htext]
    . intro hcontains limit hlimit
      apply refuses_of_short
      . exact hfallback
      . exact hlimit
      . exact hown
      . exact hcontains
    . intro hcut
      rw [(Text.Utf8.head?_words_decodeString.1 hkept).1,
        (Text.Utf8.head?_words_decodeString.1 hown).1]
      exact Text.Utf8.firstToken_decode_of_cut hcut

theorem refuses_overLong_user
    : let cfg : SessionSettings := { welcome := "hi", maxCommandLength := 16 }
      let line := Text.Utf8.encodeString "user 0123456789abcdef\n"
      cfg.registry.fallback = .unknown
        ∧
      cfg.maxCommandLength < line.length
        ∧
      (Text.words (Text.Utf8.decodeString (line.take cfg.maxCommandLength))).head? = some "user"
        ∧
      cfg.Refuses line "Command too long"
        ∧
      (Text.words (Text.Utf8.decodeString line)).head? = some "user" := by
  intro cfg line
  have hlong : cfg.maxCommandLength < line.length := by
    dsimp only [cfg, line]
    cbv
  have hkept : (Text.words (Text.Utf8.decodeString (line.take cfg.maxCommandLength))).head?
      = some "user" := by
    dsimp only [cfg, line]
    cbv
  have hends : Text.firstEnds (Text.Utf8.decode (line.take cfg.maxCommandLength)) = true := by
    dsimp only [cfg, line]
    cbv
  have hcontains : cfg.registry.contains "user" = true := by
    rw [Registry.contains_withLogin]
    exact .inl (by cbv)
  have hrefuses := refuses_overLong cfg rfl line hlong "user" hkept
  dsimp only at hrefuses
  rw [Registry.overLongText, if_pos hcontains] at hrefuses
  exact ⟨rfl, hlong, hkept, hrefuses.1, hrefuses.2.1 hends⟩

theorem refuses_overLong_not_own
    : let cfg : SessionSettings := { welcome := "hi", maxCommandLength := 16 }
      let unknown := Text.Utf8.encodeString "            USERX\r\n"
      let known := Text.Utf8.encodeString "              USER alice\r\n"
      (Text.words (Text.Utf8.decodeString unknown) = ["USERX"]
          ∧
        cfg.registry.contains "USERX" = false
          ∧
        cfg.Refuses unknown "Command too long"
          ∧
        (cfg.withLimit 512).Refuses unknown "Command not found")
        ∧
      Text.words (Text.Utf8.decodeString known) = ["USER", "alice"]
        ∧
      cfg.registry.contains "USER" = true
        ∧
      cfg.Refuses known "Command not found" := by
  intro cfg unknown known
  have huserx : cfg.registry.contains "USERX" = false := by
    rw [Bool.eq_false_iff, ne_eq, Registry.contains_withLogin]
    cbv
  have huser : cfg.registry.contains "USER" = true := by
    rw [Registry.contains_withLogin]
    exact .inl (by cbv)
  have hus : cfg.registry.contains "US" = false := by
    rw [Bool.eq_false_iff, ne_eq, Registry.contains_withLogin]
    cbv
  have hunknown : Text.words (Text.Utf8.decodeString unknown) = ["USERX"] := by
    dsimp only [unknown]
    cbv
  have hknown : Text.words (Text.Utf8.decodeString known) = ["USER", "alice"] := by
    dsimp only [known]
    cbv
  have hlong : cfg.Refuses unknown "Command too long" := by
    have htext : cfg.registry.overLongText "USER" = "Command too long" := if_pos huser
    rw [← htext]
    apply refuses_of_long
    . rfl
    . dsimp only [cfg, unknown]
      cbv
    . dsimp only [cfg, unknown]
      cbv
  have hshort : (cfg.withLimit 512).Refuses unknown "Command not found" := by
    apply refuses_of_short
    . rfl
    . dsimp only [cfg, unknown]
      cbv
    . rw [hunknown]
      rfl
    . exact huserx
  have hcut : cfg.Refuses known "Command not found" := by
    have htext : cfg.registry.overLongText "US" = "Command not found" := by
      rw [Registry.overLongText, hus]
      rfl
    rw [← htext]
    apply refuses_of_long
    . rfl
    . dsimp only [cfg, known]
      cbv
    . dsimp only [cfg, known]
      cbv
  exact ⟨⟨hunknown, huserx, hlong, hshort⟩, hknown, huser, hcut⟩

end SessionSettings

end FtpControl
