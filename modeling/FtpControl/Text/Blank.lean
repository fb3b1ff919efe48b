/-!
This module contains the blank characters that separate the tokens of a command line, and the
functions on texts that depend on them. A text is handled as its list of characters; `words` is the
same thing for strings.
-/

namespace FtpControl.Text

def isBlank (c : Char) : Bool :=
  let n := c.toNat
  (0x09 ≤ n && n ≤ 0x0D) || n == 0x20 || n == 0x85 || n == 0xA0 || n == 0x1680
    || (0x2000 ≤ n && n ≤ 0x200A) || n == 0x2028 || n == 0x2029 || n == 0x202F || n == 0x205F
    || n == 0x3000

def tokens (cs : List Char) : List (List Char) :=
  (cs.splitOnP isBlank).filter (!·.isEmpty)

def words (s : String) : List String :=
  (tokens s.toList).map String.ofList

def trimEnd (s : String) : String :=
  String.ofList (s.toList.reverse.dropWhile isBlank).reverse

def trim (s : String) : String :=
  String.ofList (s.toList.dropWhile isBlank) |> trimEnd

def dropFinal (c : Char) (cs : List Char) : List Char :=
  if cs.getLast? = some c then cs.dropLast else cs

/-- The line without one line ending: a final LF goes, and then a final CR. -/
def stripLineEnding (line : String) : String :=
  String.ofList (dropFinal '\r' (dropFinal '\n' line.toList))

theorem isBlank_lf : isBlank '\n' = true := rfl

theorem isBlank_cr : isBlank '\r' = true := rfl

theorem ne_nil_of_mem_tokens {t cs : List Char} (h : t ∈ tokens cs) : t ≠ [] := by
  have := (List.mem_filter.1 h).2
  simpa using this

@[simp]
theorem tokens_nil : tokens [] = [] := by
  simp [tokens]

theorem tokens_cons_blank {c : Char} {cs : List Char} (h : isBlank c = true) :
    tokens (c :: cs) = tokens cs := by
  simp [tokens, List.splitOnP_cons_eq_if_modifyHead, h]

end FtpControl.Text
