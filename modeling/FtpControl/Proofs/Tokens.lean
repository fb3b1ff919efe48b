import Mathlib
import FtpControl.Text.Blank

/-!
This module contains the theory of tokens: blanks at the end of a line, its line ending among them,
add nothing to its tokens, and taking a token in upper case twice is taking it once.
-/

namespace FtpControl.Text

theorem tokens_append_cons_blank {c : Char} (before after : List Char) (h : isBlank c = true)
    : tokens (before ++ c :: after) = tokens before ++ tokens after := by
  unfold tokens
  rw [List.splitOnP_append_cons _ _ h, List.filter_append]

theorem tokens_append_blank {c : Char} (cs : List Char) (h : isBlank c = true)
    : tokens (cs ++ [c]) = tokens cs := by
  rw [tokens_append_cons_blank cs [] h, tokens_nil, List.append_nil]

theorem tokens_blank_append {gap : List Char} (cs : List Char) (h : ∀ c ∈ gap, isBlank c = true)
    : tokens (gap ++ cs) = tokens cs := by
  induction gap with
  | nil => rfl
  | cons b gap ih =>
    rw [List.forall_mem_cons] at h
    rw [List.cons_append, tokens_cons_blank h.1, ih h.2]

theorem tokens_append_gap {gap : List Char} (cs : List Char) (h : ∀ c ∈ gap, isBlank c = true)
    : tokens (cs ++ gap) = tokens cs := by
  cases gap with
  | nil => rw [List.append_nil]
  | cons b gap =>
    rw [List.forall_mem_cons] at h
    have hgap := tokens_blank_append [] h.2
    rw [List.append_nil, tokens_nil] at hgap
    rw [tokens_append_cons_blank cs gap h.1, hgap, List.append_nil]

theorem tokens_dropFinal {c : Char} (cs : List Char) (h : isBlank c = true)
    : tokens (dropFinal c cs) = tokens cs := by
  unfold dropFinal
  split
  . next hlast =>
    obtain ⟨front, rfl⟩ := List.getLast?_eq_some_iff.1 hlast
    rw [List.dropLast_concat, tokens_append_blank front h]
  . rfl

theorem tokens_of_not_blank {cs : List Char} (hne : cs ≠ []) (h : ∀ c ∈ cs, isBlank c = false)
    : tokens cs = [cs] := by
  unfold tokens
  rw [List.splitOnP_eq_singleton h]
  simp [hne]

theorem flatten_tokens (cs : List Char) : (tokens cs).flatten = cs.filter (!isBlank ·) := by
  have hfilter : ∀ pieces : List (List Char),
      (pieces.filter (!·.isEmpty)).flatten = pieces.flatten := by
    intro pieces
    induction pieces with
    | nil => rfl
    | cons piece pieces ih => cases piece <;> simp [ih]
  unfold tokens
  rw [hfilter]
  induction cs with
  | nil => rfl
  | cons c cs ih =>
    rw [List.splitOnP_cons_eq_if_modifyHead, List.filter_cons, ← ih]
    cases hc : isBlank c with
    | true => rfl
    | false =>
      cases hpieces : cs.splitOnP isBlank with
      | nil => exact absurd hpieces (List.splitOnP_ne_nil _ _)
      | cons piece pieces => rfl

theorem tokens_eq_nil_iff {cs : List Char} : tokens cs = [] ↔ ∀ c ∈ cs, isBlank c = true := by
  constructor
  . intro h
    have hflatten := flatten_tokens cs
    rw [h, List.flatten_nil, eq_comm, List.filter_eq_nil_iff] at hflatten
    simpa using hflatten
  . intro h
    have hgap := tokens_blank_append [] h
    rwa [List.append_nil, tokens_nil] at hgap

theorem tokens_cons_not_blank {c : Char} (cs : List Char) (h : isBlank c = false)
    : tokens (c :: cs)
        =
      (c :: cs.takeWhile (!isBlank ·)) :: tokens (cs.dropWhile (!isBlank ·)) := by
  have hclean : ∀ d ∈ c :: cs.takeWhile (!isBlank ·), isBlank d = false := by
    rw [List.forall_mem_cons]
    refine ⟨h, fun d hd => ?_⟩
    simpa using List.mem_takeWhile_imp hd
  have hsplit : c :: cs = (c :: cs.takeWhile (!isBlank ·)) ++ cs.dropWhile (!isBlank ·) := by
    simp
  rw [hsplit]
  cases hrest : cs.dropWhile (!isBlank ·) with
  | nil => rw [List.append_nil, tokens_nil, tokens_of_not_blank (by simp) hclean]
  | cons b after =>
    have hhead := List.head_dropWhile_not (!isBlank ·) (l := cs)
    have hb : isBlank b = true := by simpa [hrest] using hhead
    rw [tokens_append_cons_blank _ _ hb, tokens_of_not_blank (by simp) hclean,
      tokens_cons_blank hb, List.singleton_append]

theorem exists_of_tokens_cons {cs token : List Char} {others : List (List Char)}
    (h : tokens cs = token :: others)
    : ∃ before rest,
        cs = before ++ token ++ rest
          ∧
        (∀ c ∈ token, isBlank c = false)
          ∧
        (others = []
          ∨ ∃ b after, rest = b :: after ∧ isBlank b = true ∧ tokens after = others) := by
  induction cs with
  | nil =>
    rw [tokens_nil] at h
    contradiction
  | cons c cs ih =>
    cases hc : isBlank c with
    | true =>
      rw [tokens_cons_blank hc] at h
      obtain ⟨before, rest, hsplit, htoken, hothers⟩ := ih h
      refine ⟨c :: before, rest, ?_, htoken, hothers⟩
      rw [hsplit]
      rfl
    | false =>
      rw [tokens_cons_not_blank cs hc, List.cons.injEq] at h
      obtain ⟨rfl, hothers⟩ := h
      refine ⟨[], cs.dropWhile (!isBlank ·), by simp, ?_, ?_⟩
      . rw [List.forall_mem_cons]
        refine ⟨hc, fun d hd => ?_⟩
        simpa using List.mem_takeWhile_imp hd
      . cases hrest : cs.dropWhile (!isBlank ·) with
        | nil =>
          rw [hrest, tokens_nil] at hothers
          exact .inl hothers.symm
        | cons b after =>
          have hhead := List.head_dropWhile_not (!isBlank ·) (l := cs)
          have hb : isBlank b = true := by simpa [hrest] using hhead
          rw [hrest, tokens_cons_blank hb] at hothers
          exact .inr ⟨b, after, rfl, hb, hothers⟩

def firstToken (cs : List Char) : List Char :=
  (cs.dropWhile isBlank).takeWhile (!isBlank ·)

theorem head?_tokens (cs : List Char)
    : (tokens cs).head? = if firstToken cs = [] then none else some (firstToken cs) := by
  unfold firstToken
  induction cs with
  | nil => rfl
  | cons c cs ih =>
    cases hc : isBlank c with
    | true => rw [tokens_cons_blank hc, ih, List.dropWhile_cons_of_pos hc]
    | false =>
      rw [tokens_cons_not_blank cs hc, List.dropWhile_cons_of_neg (by simp [hc]),
        List.takeWhile_cons_of_pos (by simp [hc])]
      rfl

/-- Whether the first token ends inside a text: there is a blank behind it. -/
def firstEnds (cs : List Char) : Bool :=
  (cs.dropWhile isBlank).any isBlank

theorem firstToken_append_of_firstEnds {cs : List Char} (h : firstEnds cs = true)
    (rest : List Char) : firstToken (cs ++ rest) = firstToken cs := by
  obtain ⟨b, hmem, hb⟩ := List.any_eq_true.1 h
  have hne : ¬(cs.dropWhile isBlank).isEmpty = true := by
    intro hempty
    rw [List.isEmpty_iff.1 hempty] at hmem
    contradiction
  have hshort : ¬((cs.dropWhile isBlank).takeWhile (!isBlank ·)).length
      = (cs.dropWhile isBlank).length := by
    intro hlength
    have hall := List.takeWhile_eq_self_iff.1 ((List.takeWhile_prefix _).eq_of_length hlength)
    simpa [hb] using hall b hmem
  unfold firstToken
  rw [List.dropWhile_append, if_neg hne, List.takeWhile_append, if_neg hshort]

theorem firstToken_of_not_firstEnds {cs : List Char} (h : firstEnds cs = false)
    : firstToken cs = cs.dropWhile isBlank := by
  apply List.takeWhile_eq_self_iff.2
  simpa [firstEnds] using h

theorem firstToken_isPrefix (cs rest : List Char)
    : firstToken cs <+: firstToken (cs ++ rest) := by
  cases hends : firstEnds cs with
  | true => rw [firstToken_append_of_firstEnds hends]
  | false =>
    have htoken := firstToken_of_not_firstEnds hends
    rw [htoken]
    unfold firstToken at htoken ⊢
    rw [List.dropWhile_append]
    split
    . next hnil =>
      rw [List.isEmpty_iff.1 hnil]
      apply List.nil_prefix
    . rw [List.takeWhile_append, if_pos (congrArg List.length htoken)]
      apply List.prefix_append

section

variable {cs rest : List Char}

theorem dropWhile_append_of_not_blank (h : ∀ c ∈ rest, isBlank c = false)
    : (cs ++ rest).dropWhile isBlank = cs.dropWhile isBlank ++ rest := by
  rw [List.dropWhile_append]
  split
  . next hnil =>
    rw [List.isEmpty_iff.1 hnil, List.nil_append]
    apply List.dropWhile_eq_self_iff.2
    intro hlength
    simp [h]
  . rfl

theorem firstEnds_append_of_not_blank (h : ∀ c ∈ rest, isBlank c = false)
    : firstEnds (cs ++ rest) = firstEnds cs := by
  have hrest : rest.any isBlank = false := by simpa using h
  unfold firstEnds
  rw [dropWhile_append_of_not_blank h, List.any_append, hrest, Bool.or_false]

theorem firstToken_append_of_not_blank (h : ∀ c ∈ rest, isBlank c = false)
    (hends : firstEnds cs = false) : firstToken (cs ++ rest) = firstToken cs ++ rest := by
  have hboth := hends
  rw [← firstEnds_append_of_not_blank h] at hboth
  rw [firstToken_of_not_firstEnds hboth, firstToken_of_not_firstEnds hends,
    dropWhile_append_of_not_blank h]

end

theorem head?_words_eq_some_iff {line token : String}
    : (words line).head? = some token
        ↔
      token.toList = firstToken line.toList ∧ firstToken line.toList ≠ [] := by
  unfold words
  rw [List.head?_map, head?_tokens]
  by_cases hblank : firstToken line.toList = []
  . simp [hblank]
  . rw [if_neg hblank, Option.map_some, Option.some.injEq, and_iff_left hblank, eq_comm,
      ← String.toList_inj, String.toList_ofList]

theorem words_stripLineEnding (line : String) : words (stripLineEnding line) = words line := by
  unfold words stripLineEnding
  rw [String.toList_ofList, tokens_dropFinal _ isBlank_cr, tokens_dropFinal _ isBlank_lf]

theorem words_append_gap {gap : String} (line : String) (h : ∀ c ∈ gap.toList, isBlank c = true)
    : words (line ++ gap) = words line := by
  unfold words
  rw [String.toList_append, tokens_append_gap _ h]

theorem toUpper_toUpper (s : String) : s.toUpper.toUpper = s.toUpper := by
  apply String.toList_inj.1
  unfold String.toUpper
  rw [String.toList_map, String.toList_map, List.map_map]
  apply List.map_congr_left
  intro c _
  apply Char.toUpper_toUpper_eq_toUpper

theorem toList_toUpper (s : String)
    : s.toUpper.toList
        =
      s.toList.map fun c => if 'a' ≤ c ∧ c ≤ 'z' then Char.ofNat (c.toNat - 32) else c := by
  unfold String.toUpper
  rw [String.toList_map]
  apply List.map_congr_left
  intro c _
  have hlower : c.isLower = true ↔ 'a' ≤ c ∧ c ≤ 'z' := by
    simp [Char.isLower, Char.le_def]
  split
  . next h => rw [Char.toUpper_eq_of_isLower (hlower.2 h)]
  . next h => rw [Char.toUpper_eq_of_not_isLower (mt hlower.1 h)]

end FtpControl.Text
