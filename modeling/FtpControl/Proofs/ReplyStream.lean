import Mathlib.Data.List.Basic
import FtpControl.Reply

/-!
This module contains the stream of replies that a peer sees. Whatever the texts of the replies are,
the stream falls apart at its line ends into one line for each reply, and the replies can be read
back from these lines.
-/

namespace FtpControl

section

variable (text : String)

theorem toList_flatten
    : (flatten text).toList
        =
      text.toList.map fun c => if c = '\r' ∨ c = '\n' then ' ' else c := by
  unfold flatten
  rw [String.toList_map]

theorem length_flatten : (flatten text).length = text.length := by
  rw [← String.length_toList, toList_flatten, List.length_map, String.length_toList]

def OnOneLine : Prop :=
  '\r' ∉ text.toList ∧ '\n' ∉ text.toList

theorem onOneLine_flatten : OnOneLine (flatten text) := by
  unfold OnOneLine
  rw [toList_flatten]
  constructor
  all_goals
    rw [List.mem_map]
    rintro ⟨c, _, hc⟩
    split at hc
    . contradiction
    . next hother => simp [hc] at hother

theorem flatten_eq_self {text : String} (h : OnOneLine text) : flatten text = text := by
  apply String.toList_inj.1
  rw [toList_flatten]
  have hkeep : ∀ c ∈ text.toList, (if c = '\r' ∨ c = '\n' then ' ' else c) = id c := by
    intro c hc
    rw [if_neg]
    . rfl
    . rintro (rfl | rfl)
      . exact h.1 hc
      . exact h.2 hc
  rw [List.map_congr_left hkeep, List.map_id]

end

def crlfLines : List Char → List (List Char)
  | [] => []
  | '\r' :: '\n' :: cs => [] :: crlfLines cs
  | c :: cs =>
    match crlfLines cs with
    | [] => [[c]]
    | line :: lines => (c :: line) :: lines

theorem crlfLines_append {line : List Char} (rest : List Char) (h : '\r' ∉ line)
    : crlfLines (line ++ '\r' :: '\n' :: rest) = line :: crlfLines rest := by
  induction line with
  | nil => rw [List.nil_append, crlfLines]
  | cons c line ih =>
    rw [List.mem_cons, not_or] at h
    rw [List.cons_append, crlfLines, ih h.2]
    intro cs hc
    exact absurd hc.symm h.1

namespace ReplyCode

def digits (code : ReplyCode) : List Char :=
  Nat.toDigits 10 code.number

theorem digits_eq (code : ReplyCode)
    : code.digits.length = 3
        ∧
      (∀ d ∈ code.digits, d.isDigit = true)
        ∧
      ofNumber? (Nat.ofDigitChars 10 code.digits 0) = some code := by
  have hall : code.digits.all Char.isDigit = true := by
    cases code <;> decide
  refine ⟨?_, ?_, ?_⟩
  . cases code <;> rfl
  . simpa using hall
  . cases code <;> rfl

end ReplyCode

namespace Reply

def line (r : Reply) : String :=
  s!"{r.code.number} {flatten r.text}"

def received (r : Reply) : Reply :=
  { r with text := flatten r.text }

def ofLine? (line : List Char) : Option Reply :=
  match line with
  | a :: b :: c :: ' ' :: text =>
    (ReplyCode.ofNumber? (Nat.ofDigitChars 10 [a, b, c] 0)).map (⟨·, String.ofList text⟩)
  | _ => none

def encodeAll (replies : List Reply) : String :=
  String.join (replies.map encode)

def decodeAll? (wire : String) : Option (List Reply) :=
  (crlfLines wire.toList).mapM ofLine?

theorem encode_eq_line (r : Reply) : r.encode = r.line ++ "\r\n" := by
  apply encode_eq

theorem toList_line (r : Reply)
    : r.line.toList = r.code.digits ++ ' ' :: (flatten r.text).toList := by
  simp [line, toString, ReplyCode.digits]

theorem onOneLine_line (r : Reply) : OnOneLine r.line := by
  have hdigit : ∀ {c : Char}, c.isDigit = false → c ∉ r.code.digits := by
    intro c hc hmem
    rw [r.code.digits_eq.2.1 c hmem] at hc
    contradiction
  obtain ⟨hcr, hlf⟩ := onOneLine_flatten r.text
  unfold OnOneLine
  rw [toList_line]
  simp only [List.mem_append, List.mem_cons, not_or]
  exact ⟨⟨hdigit rfl, by decide, hcr⟩, ⟨hdigit rfl, by decide, hlf⟩⟩

theorem ofLine?_line (r : Reply) : ofLine? r.line.toList = some r.received := by
  obtain ⟨hlength, _, hcode⟩ := r.code.digits_eq
  rw [toList_line]
  match hdigits : r.code.digits, hlength with
  | [a, b, c], _ =>
    rw [hdigits] at hcode
    simp only [List.cons_append, List.nil_append, ofLine?]
    rw [hcode, String.ofList_toList]
    rfl

theorem toList_encodeAll_cons (r : Reply) (replies : List Reply)
    : (encodeAll (r :: replies)).toList
        =
      r.line.toList ++ '\r' :: '\n' :: (encodeAll replies).toList := by
  unfold encodeAll
  rw [List.map_cons, String.toList_join, String.toList_join, List.flatMap_cons, encode_eq_line,
    String.toList_append, List.append_assoc]
  rfl

theorem crlfLines_encodeAll (replies : List Reply)
    : crlfLines (encodeAll replies).toList = replies.map (·.line.toList) := by
  induction replies with
  | nil => rfl
  | cons r replies ih =>
    rw [toList_encodeAll_cons, crlfLines_append _ r.onOneLine_line.1, ih]
    rfl

theorem count_encodeAll (replies : List Reply) {c : Char} (hc : c = '\r' ∨ c = '\n')
    : (encodeAll replies).toList.count c = replies.length := by
  induction replies with
  | nil => rfl
  | cons r replies ih =>
    obtain ⟨hcr, hlf⟩ := r.onOneLine_line
    have hline : r.line.toList.count c = 0 := by
      apply List.count_eq_zero_of_not_mem
      rcases hc with rfl | rfl <;> assumption
    rw [toList_encodeAll_cons, List.count_append, hline, List.count_cons, List.count_cons, ih,
      List.length_cons]
    rcases hc with rfl | rfl <;> simp

theorem decodeAll?_encodeAll (replies : List Reply)
    : decodeAll? (encodeAll replies) = some (replies.map received) := by
  unfold decodeAll?
  rw [crlfLines_encodeAll]
  induction replies with
  | nil => rfl
  | cons r replies ih =>
    rw [List.map_cons, List.mapM_cons, ofLine?_line, ih]
    rfl

theorem received_eq_self {r : Reply} (h : OnOneLine r.text) : r.received = r := by
  unfold received
  rw [flatten_eq_self h]

theorem map_received {replies : List Reply} (h : ∀ r ∈ replies, OnOneLine r.text)
    : replies.map received = replies := by
  have hself : ∀ r ∈ replies, r.received = id r := by
    intro r hr
    exact received_eq_self (h r hr)
  rw [List.map_congr_left hself, List.map_id]

theorem formatLine_of_unregistered {number : Nat} (h : ReplyCode.ofNumber? number = none)
    (text : String) : formatLine number text = "500 Syntax error, command unrecognized\r\n" := by
  unfold formatLine
  rw [h]
  rfl

theorem encode_ofNumber (number : Nat) (text : String)
    : (ofNumber number text).encode = formatLine number text := by
  unfold ofNumber
  cases hcode : ReplyCode.ofNumber? number with
  | some code =>
    rw [← ReplyCode.number_of_ofNumber? hcode]
    rfl
  | none =>
    -- Both ways know a refusal of their own for numbers that are not registered.
    rw [formatLine_of_unregistered hcode]
    dsimp only
    decide +kernel

/--
The stream of any replies falls apart into their lines, and the replies can be read back from it,
their texts on one line each.
-/
theorem encodeAll_decodable (replies : List Reply)
    : let wire := encodeAll replies
      (wire.toList.count '\r' = replies.length
        ∧ wire.toList.count '\n' = replies.length
        ∧ ∀ r ∈ replies, r.encode = r.line ++ "\r\n" ∧ OnOneLine r.line)
        ∧
      crlfLines wire.toList = replies.map (·.line.toList)
        ∧
      (∀ r ∈ replies,
        r.line.toList = r.code.digits ++ ' ' :: (flatten r.text).toList
          ∧
        (r.code.digits.length = 3
          ∧ (∀ d ∈ r.code.digits, d.isDigit = true)
          ∧ ReplyCode.ofNumber? (Nat.ofDigitChars 10 r.code.digits 0) = some r.code)
          ∧
        (flatten r.text).toList
            =
          r.text.toList.map (fun c => if c = '\r' ∨ c = '\n' then ' ' else c)
          ∧
        (OnOneLine r.text → flatten r.text = r.text)
          ∧
        (flatten r.text).length = r.text.length)
        ∧
      decodeAll? wire = some (replies.map received)
        ∧
      (∀ others, (∀ r ∈ replies ++ others, OnOneLine r.text) → encodeAll others = wire
        → others = replies)
        ∧
      ∀ number text,
        (ofNumber number text).encode = formatLine number text
          ∧
        (ReplyCode.ofNumber? number = none
          → formatLine number text = "500 Syntax error, command unrecognized\r\n") := by
  intro wire
  refine ⟨⟨?_, ?_, ?_⟩, crlfLines_encodeAll replies, ?_, decodeAll?_encodeAll replies, ?_, ?_⟩
  . exact count_encodeAll replies (.inl rfl)
  . exact count_encodeAll replies (.inr rfl)
  . intro r _
    exact ⟨r.encode_eq_line, r.onOneLine_line⟩
  . intro r _
    exact ⟨r.toList_line, r.code.digits_eq, toList_flatten r.text, flatten_eq_self,
      length_flatten r.text⟩
  . intro others h hwire
    rw [List.forall_mem_append] at h
    have hothers := decodeAll?_encodeAll others
    rw [hwire, decodeAll?_encodeAll, map_received h.1, map_received h.2] at hothers
    exact (Option.some.inj hothers).symm
  . intro number text
    refine ⟨encode_ofNumber number text, ?_⟩
    intro h
    exact formatLine_of_unregistered h text

theorem encodeAll_decodable_of_forged
    : let forged := [⟨.syntaxError, "bad\r\n230 Password ok"⟩, ofNumber 150 "Opening\n"]
      let plain : List Reply := [⟨.loggedIn, "230 ok"⟩, ⟨.loggedIn, ""⟩]
      encodeAll forged
          =
        "500 bad  230 Password ok\r\n500 Syntax error, command unrecognized\r\n"
        ∧
      crlfLines (encodeAll forged).toList
          =
        ["500 bad  230 Password ok".toList, "500 Syntax error, command unrecognized".toList]
        ∧
      (ofNumber 150 "Opening\n").encode = "500 Syntax error, command unrecognized\r\n"
        ∧
      (∀ r ∈ plain, OnOneLine r.text)
        ∧
      ∀ others, (∀ r ∈ others, OnOneLine r.text) → encodeAll others = "230 230 ok\r\n230 \r\n"
        → others = plain := by
  intro forged plain
  obtain ⟨_, hlines, _, _, _, hnumber⟩ := encodeAll_decodable forged
  obtain ⟨_, _, _, _, hunique, _⟩ := encodeAll_decodable plain
  obtain ⟨hencode, hline⟩ := hnumber 150 "Opening\n"
  have hone : ∀ r ∈ plain, OnOneLine r.text := by
    unfold OnOneLine
    simp [plain]
  refine ⟨by decide +kernel, ?_, hencode.trans (hline rfl), hone, ?_⟩
  . rw [hlines]
    decide +kernel
  . intro others hothers hwire
    apply hunique others
    . rw [List.forall_mem_append]
      exact ⟨hone, hothers⟩
    . rw [hwire]
      decide +kernel

end Reply

end FtpControl
