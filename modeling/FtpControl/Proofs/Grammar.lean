import FtpControl.Command
import FtpControl.Proofs.Tokens

/-!
This module contains the grammar of command lines: tokens with blanks around them. Every line is
laid out in this way, for one list of tokens only, and these tokens are all that matters to what it
asks for.
-/

namespace FtpControl

namespace Text

structure Piece where
  token : List Char
  gap : List Char
  ne_nil : token ≠ [] := by decide
  isBlank_token : ∀ c ∈ token, isBlank c = false := by simp [FtpControl.Text.isBlank]
  isBlank_gap : ∀ c ∈ gap, isBlank c = true := by simp [FtpControl.Text.isBlank]

def Piece.chars (p : Piece) : List Char :=
  p.token ++ p.gap

structure Layout where
  lead : List Char
  pieces : List Piece
  isBlank_lead : ∀ c ∈ lead, isBlank c = true := by simp [FtpControl.Text.isBlank]
  separated : ∀ p ∈ pieces.dropLast, p.gap ≠ [] := by simp

namespace Layout

def chars (l : Layout) : List Char :=
  l.lead ++ l.pieces.flatMap Piece.chars

def line (l : Layout) : String :=
  String.ofList l.chars

def tokens (l : Layout) : List String :=
  l.pieces.map fun p => String.ofList p.token

theorem tokens_pieces {pieces : List Piece} (h : ∀ p ∈ pieces.dropLast, p.gap ≠ [])
    : Text.tokens (pieces.flatMap Piece.chars) = pieces.map Piece.token := by
  induction pieces with
  | nil => simp
  | cons p pieces ih =>
    have htoken : Text.tokens p.token = [p.token] := tokens_of_not_blank p.ne_nil p.isBlank_token
    rw [List.flatMap_cons, List.map_cons, Piece.chars]
    cases hgap : p.gap with
    | nil =>
      -- Nothing stands behind the token, so it is the last one.
      cases pieces with
      | nil => simp [htoken]
      | cons next later => simp [hgap] at h
    | cons b gap =>
      have hblank := p.isBlank_gap
      rw [hgap, List.forall_mem_cons] at hblank
      rw [List.append_assoc, List.cons_append, tokens_append_cons_blank _ _ hblank.1, htoken,
        tokens_blank_append _ hblank.2, ih]
      . rfl
      . intro q hq
        apply h
        cases pieces with
        | nil => simp at hq
        | cons next later =>
          rw [List.dropLast_cons_cons]
          exact List.mem_cons_of_mem p hq

theorem words_line (l : Layout) : words l.line = l.tokens := by
  unfold words line chars tokens
  rw [String.toList_ofList, tokens_blank_append _ l.isBlank_lead, tokens_pieces l.separated,
    List.map_map]
  rfl

theorem exists_chars_eq (cs : List Char) : ∃ l : Layout, l.chars = cs := by
  induction cs with
  | nil => exact ⟨⟨[], [], by simp, by simp⟩, rfl⟩
  | cons c cs ih =>
    obtain ⟨⟨lead, pieces, hlead, hseparated⟩, rfl⟩ := ih
    cases hc : isBlank c with
    | true =>
      refine ⟨⟨c :: lead, pieces, ?_, hseparated⟩, rfl⟩
      simpa [hc] using hlead
    | false =>
      cases lead with
      | cons b lead =>
        -- A blank follows, so the character is a token of its own.
        refine ⟨⟨[], ⟨[c], b :: lead, by simp, ?_, hlead⟩ :: pieces, by simp, ?_⟩, rfl⟩
        . simpa using hc
        . cases pieces with
          | nil => simp
          | cons next later => simpa using hseparated
      | nil =>
        cases pieces with
        | nil => exact ⟨⟨[], [⟨[c], [], by simp, by simpa using hc, by simp⟩], by simp, by simp⟩, rfl⟩
        | cons p pieces =>
          obtain ⟨token, gap, hne, htoken, hgap⟩ := p
          refine ⟨⟨[], ⟨c :: token, gap, by simp, ?_, hgap⟩ :: pieces, by simp, ?_⟩, rfl⟩
          . simpa [hc] using htoken
          . cases pieces with
            | nil => simp
            | cons next later => simpa using hseparated

theorem exists_line_eq (line : String) : ∃ l : Layout, l.line = line := by
  obtain ⟨l, hl⟩ := exists_chars_eq line.toList
  refine ⟨l, ?_⟩
  rw [Layout.line, hl, String.ofList_toList]

theorem tokens_eq_nil_iff (l : Layout)
    : l.tokens = [] ↔ ∀ c ∈ l.line.toList, isBlank c = true := by
  rw [← l.words_line, ← Text.tokens_eq_nil_iff]
  apply List.map_eq_nil_iff

end Layout

end Text

namespace Request

variable {arity : String → Nat} {line token : String} {args : List String}

theorem parse_of_blank (h : Text.words line = []) : parse arity line = .blank := by
  unfold parse
  rw [Text.words_stripLineEnding, h]

theorem parse_of_words (h : Text.words line = token :: args)
    : parse arity line
        =
      if args.length < arity token.toUpper then
        .incomplete token.toUpper (arity token.toUpper) args.length
      else
        .complete ⟨token.toUpper, args⟩ := by
  unfold parse
  rw [Text.words_stripLineEnding, h]

theorem parse_congr {other : String} (h : Text.words line = Text.words other)
    : parse arity line = parse arity other := by
  unfold parse
  rw [Text.words_stripLineEnding, Text.words_stripLineEnding, h]

theorem le_of_complete {command : Command} (h : parse arity line = .complete command)
    : arity command.verb ≤ command.args.length := by
  cases hwords : Text.words line with
  | nil =>
    rw [parse_of_blank hwords] at h
    contradiction
  | cons token args =>
    rw [parse_of_words hwords] at h
    split at h
    . contradiction
    . next henough =>
      rw [complete.injEq] at h
      rw [← h]
      exact Nat.not_lt.1 henough

theorem forall_parse_eq_iff {other : String}
    : (∀ arity, parse arity line = parse arity other)
        ↔
      (Text.words line).modifyHead String.toUpper = (Text.words other).modifyHead String.toUpper := by
  constructor
  . intro h
    have hfree := h fun _ => 0
    cases hline : Text.words line with
    | nil =>
      cases hother : Text.words other with
      | nil => rfl
      | cons token args =>
        rw [parse_of_blank hline, parse_of_words hother] at hfree
        simp at hfree
    | cons token args =>
      rw [parse_of_words hline] at hfree
      cases hother : Text.words other with
      | nil =>
        rw [parse_of_blank hother] at hfree
        simp at hfree
      | cons token' args' =>
        rw [parse_of_words hother] at hfree
        simpa using hfree
  . intro h arity
    cases hline : Text.words line with
    | nil =>
      rw [hline] at h
      have hother : Text.words other = [] := by
        simpa using h.symm
      rw [parse_of_blank hline, parse_of_blank hother]
    | cons token args =>
      cases hother : Text.words other with
      | nil =>
        rw [hline, hother] at h
        simp at h
      | cons token' args' =>
        rw [hline, hother, List.modifyHead_cons, List.modifyHead_cons, List.cons.injEq] at h
        rw [parse_of_words hline, parse_of_words hother, h.1, h.2]

/--
Reading a line gives back the tokens that it is laid out of. The lines that say the same are those
with the same tokens, up to the case of the first one.
-/
theorem parse_inverts_layout
    : (∀ (l : Text.Layout) (token : String) (args : List String), l.tokens = token :: args
        → ∃ verb : String,
            verb.toList
                =
              token.toList.map (fun c =>
                if 'a' ≤ c ∧ c ≤ 'z' then Char.ofNat (c.toNat - 32) else c)
              ∧
            ∀ arity,
              parse arity l.line
                =
              if arity verb ≤ args.length then
                .complete ⟨verb, args⟩
              else
                .incomplete verb (arity verb) args.length)
        ∧
      (∀ line : String,
        (∀ c ∈ line.toList, Text.isBlank c = true) ∧ (∀ arity, parse arity line = .blank)
          ∨
        ¬ (∀ c ∈ line.toList, Text.isBlank c = true)
          ∧
        ∃! tokens, tokens ≠ [] ∧ ∃ l : Text.Layout, l.line = line ∧ l.tokens = tokens)
        ∧
      (∀ l m : Text.Layout,
        (∀ arity, parse arity l.line = parse arity m.line)
          ↔
        l.tokens.modifyHead String.toUpper = m.tokens.modifyHead String.toUpper)
        ∧
      (∀ arity line, ∀ ending ∈ ["\n", "\r\n"], parse arity (line ++ ending) = parse arity line)
        ∧
      (∀ arity line command, parse arity line = .complete command
        → arity command.verb ≤ command.args.length) := by
  refine ⟨?_, ?_, ?_, ?_, ?_⟩
  . intro l token args htokens
    refine ⟨token.toUpper, Text.toList_toUpper token, ?_⟩
    intro arity
    rw [← l.words_line] at htokens
    rw [parse_of_words htokens]
    split
    . next hless => rw [if_neg (by omega)]
    . next hless => rw [if_pos (by omega)]
  . intro line
    obtain ⟨l, rfl⟩ := Text.Layout.exists_line_eq line
    rw [← l.tokens_eq_nil_iff]
    by_cases hnil : l.tokens = []
    . left
      refine ⟨hnil, ?_⟩
      intro arity
      apply parse_of_blank
      rw [l.words_line, hnil]
    . right
      refine ⟨hnil, l.tokens, ⟨hnil, l, rfl, rfl⟩, ?_⟩
      rintro tokens ⟨_, m, hline, rfl⟩
      rw [← m.words_line, hline, l.words_line]
  . intro l m
    rw [← l.words_line, ← m.words_line]
    apply forall_parse_eq_iff
  . intro arity line ending hending
    apply parse_congr
    apply Text.words_append_gap
    have hblank : ∀ ending ∈ ["\n", "\r\n"], ending.toList.all Text.isBlank = true := by
      decide +kernel
    simpa using hblank ending hending
  . intro arity line command hcomplete
    exact le_of_complete hcomplete

theorem parse_inverts_layout_of_site
    : let l : Text.Layout :=
        { lead := ['\u00A0', ' ']
          pieces :=
            [{ token := ['s', 'I', 't', 'é'], gap := ['\t'] },
              { token := ['É'], gap := ['\u2003', '\n'] },
              { token := ['x'], gap := [] }] }
      l.line = "\u00A0 sIté\tÉ\u2003\nx"
        ∧
      l.tokens = ["sIté", "É", "x"]
        ∧
      parse (fun _ => 2) l.line = .complete ⟨"SITé", ["É", "x"]⟩
        ∧
      parse (fun _ => 3) l.line = .incomplete "SITé" 3 2
        ∧
      parse (fun _ => 2) (l.line ++ "\r\n") = .complete ⟨"SITé", ["É", "x"]⟩ := by
  intro l
  have htokens : l.tokens = ["sIté", "É", "x"] := by decide +kernel
  obtain ⟨verb, hverb, hparse⟩ := parse_inverts_layout.1 l "sIté" ["É", "x"] htokens
  have hsite : verb = "SITé" := by
    apply String.toList_inj.1
    rw [hverb]
    decide +kernel
  rw [hsite] at hparse
  have hending := parse_inverts_layout.2.2.2.1 (fun _ => 2) l.line "\r\n" (by simp)
  refine ⟨by decide +kernel, htokens, hparse fun _ => 2, hparse fun _ => 3, ?_⟩
  rw [hending]
  exact hparse fun _ => 2

end Request

end FtpControl
