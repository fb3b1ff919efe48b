import FtpControl.Proofs.Decoding
import FtpControl.Proofs.LoginMachine
import FtpControl.Proofs.LoginSoundness
import FtpControl.Proofs.Validation

/-!
This module contains the accounts that can be logged in to with some stream of bytes. A name and a
password have to be tokens of lines that are not too long, and have to be looked up at all.
-/

namespace FtpControl

namespace Text

structure IsWord (s : String) : Prop where
  ne_empty : s ≠ ""
  not_blank : ∀ c ∈ s.toList, isBlank c = false

theorem IsWord.tokens_eq {s : String} (h : IsWord s) : tokens s.toList = [s.toList] := by
  apply tokens_of_not_blank
  . intro hnil
    exact h.ne_empty (String.toList_inj.1 hnil)
  . exact h.not_blank

theorem words_of_two {verb arg : String} (hverb : IsWord verb) (harg : IsWord arg)
    : words (verb ++ " " ++ arg) = [verb, arg] := by
  have hline : (verb ++ " " ++ arg).toList = verb.toList ++ ' ' :: arg.toList := by
    rw [String.toList_append, String.toList_append, List.append_assoc]
    rfl
  unfold words
  rw [hline, tokens_append_cons_blank _ _ (by rfl), hverb.tokens_eq, harg.tokens_eq]
  simp

theorem weight_tokens_le {cs token arg : List Char} {args : List (List Char)}
    (h : tokens cs = token :: arg :: args)
    : Utf8.weight token + 1 + Utf8.weight arg ≤ Utf8.weight cs
        ∧
      ∀ c ∈ arg, isBlank c = false := by
  obtain ⟨before, rest, hsplit, _, hnone | ⟨b, after, hrest, hb, hothers⟩⟩ :=
    exists_of_tokens_cons h
  . contradiction
  . obtain ⟨gap, last, hafter, harg, _⟩ := exists_of_tokens_cons hothers
    have hne : b ≠ Utf8.replacement := by
      intro heq
      rw [heq, Utf8.isBlank_replacement] at hb
      contradiction
    have hpos := b.utf8Size_pos
    refine ⟨?_, harg⟩
    rw [hsplit, hrest, hafter]
    simp only [Utf8.weight_append, Utf8.weight_cons, if_neg hne]
    omega

theorem isWord_verb {verb : String} (h : verb = "USER" ∨ verb = "PASS") : IsWord verb := by
  have hall : (verb.toList.all fun c => !isBlank c) = true := by
    rcases h with rfl | rfl <;> cbv
  constructor
  . rcases h with rfl | rfl <;> decide
  . simpa using hall

theorem four_le_weight {token : List Char} {verb : String}
    (h : (String.ofList token).toUpper = verb) (hverb : verb = "USER" ∨ verb = "PASS")
    : 4 ≤ Utf8.weight token := by
  have hletters : token.map Char.toUpper = verb.toList := by
    rw [← h, String.toUpper, String.toList_map, String.toList_ofList]
  have hfour : verb.toList.length = 4 := by
    rcases hverb with rfl | rfl <;> cbv
  have hclean : Utf8.replacement ∉ token := by
    intro hmem
    have hupper := List.mem_map_of_mem (f := Char.toUpper) hmem
    have hall : (verb.toList.all fun c => c != Utf8.replacement.toUpper) = true := by
      rcases hverb with rfl | rfl <;> cbv
    rw [List.all_eq_true] at hall
    rw [hletters] at hupper
    simpa using hall _ hupper
  have hlength := Utf8.length_le_weight hclean
  rw [← hletters, List.length_map] at hfour
  omega

end Text

namespace LoginMachine

structure Carries (limit : Nat) (line : List UInt8) (verb arg : String) : Prop where
  length_le : line.length ≤ limit
  words_eq : ∃ token args,
    Text.words (Text.Utf8.decodeString line) = token :: arg :: args ∧ token.toUpper = verb

variable {backend : Backend} {limit : Nat} {m : LoginMachine} {line : List UInt8}

theorem Carries.exists_tokens {verb arg : String} (h : Carries limit line verb arg)
    : ∃ token args,
        Text.tokens (Text.Utf8.decode line) = token :: arg.toList :: args
          ∧
        (String.ofList token).toUpper = verb := by
  obtain ⟨token, args, hwords, hverb⟩ := h.words_eq
  unfold Text.words Text.Utf8.decodeString at hwords
  rw [String.toList_ofList, List.map_eq_cons_iff] at hwords
  obtain ⟨first, others, htokens, rfl, hothers⟩ := hwords
  obtain ⟨second, rest, rfl, rfl, _⟩ := List.map_eq_cons_iff.1 hothers
  refine ⟨first, rest, ?_, hverb⟩
  rw [htokens, String.toList_ofList]

theorem words_concat_lf (line : List UInt8)
    : Text.words (Text.Utf8.decodeString (line ++ [Framer.lf]))
        =
      Text.words (Text.Utf8.decodeString line) := by
  have hdecode : Text.Utf8.decode (line ++ [Framer.lf]) = Text.Utf8.decode line ++ ['\n'] :=
    Text.Utf8.decodeFrom_append_lf .start line
  unfold Text.words Text.Utf8.decodeString
  rw [hdecode, String.toList_ofList, String.toList_ofList,
    Text.tokens_append_blank _ Text.isBlank_lf]

theorem carries_concat_lf {verb arg : String}
    : Carries limit (line ++ [Framer.lf]) verb arg
        ↔
      Carries limit line verb arg ∧ line.length + 1 ≤ limit := by
  constructor
  . intro h
    have hlength := h.length_le
    rw [List.length_append, List.length_singleton] at hlength
    refine ⟨⟨by omega, ?_⟩, hlength⟩
    rw [← words_concat_lf]
    exact h.words_eq
  . intro ⟨h, hlength⟩
    constructor
    . rw [List.length_append, List.length_singleton]
      exact hlength
    . rw [words_concat_lf]
      exact h.words_eq

theorem Carries.le_length {verb arg : String} (h : Carries limit line verb arg)
    (hverb : verb = "USER" ∨ verb = "PASS") (harg : Text.Utf8.replacement ∉ arg.toList)
    : 5 + arg.utf8ByteSize ≤ line.length := by
  obtain ⟨token, args, htokens, htoken⟩ := h.exists_tokens
  have hfour := Text.four_le_weight htoken hverb
  have hsize := Text.Utf8.weight_toList harg
  have hweight := (Text.weight_tokens_le htokens).1
  have hle := Text.Utf8.weight_decode_le line
  omega

theorem Carries.isWord {verb arg : String} (h : Carries limit line verb arg)
    : Text.IsWord arg := by
  obtain ⟨token, args, htokens, _⟩ := h.exists_tokens
  constructor
  . rintro rfl
    have hmem : [] ∈ Text.tokens (Text.Utf8.decode line) := by simp [htokens]
    exact Text.ne_nil_of_mem_tokens hmem rfl
  . exact (Text.weight_tokens_le htokens).2

inductive Change (backend : Backend) (limit : Nat) (m : LoginMachine) (line : List UInt8)
    : Login → Prop
  | idle : Change backend limit m line m.login
  | named {name : String} (hline : Carries limit line "USER" name)
    : Change backend limit m line (.pending name)
  | granted {name password : String} (hline : Carries limit line "PASS" password)
      (hpending : m.login = .pending name)
      (hgranted : backend m.calls ⟨name, password⟩ = .granted)
    : Change backend limit m line (.loggedIn name)
  | refused : Change backend limit m line .anonymous

theorem change_step (backend : Backend) (limit : Nat) (m : LoginMachine) (line : List UInt8)
    : Change backend limit m line (step backend limit m line).1.login := by
  unfold step
  split
  . exact .idle
  . next token args hwords =>
    split
    . exact .idle
    . next hshort =>
      unfold command
      split
      . next hverb =>
        have hlength : line.length ≤ limit := by
          by_contra hlong
          exact hshort ⟨by omega, hverb⟩
        rw [List.take_of_length_le hlength] at hwords
        cases args with
        | nil => exact .idle
        | cons arg args =>
          dsimp only
          split
          . next huser =>
            unfold user
            split
            . exact .idle
            . exact .named ⟨hlength, token, args, hwords, huser⟩
          . next huser =>
            have hline : Carries limit line "PASS" arg :=
              ⟨hlength, token, args, hwords, hverb.resolve_left huser⟩
            unfold pass
            split
            . exact .idle
            . exact .idle
            . next name hpending =>
              dsimp only
              split
              . next hgranted => exact .granted hline hpending hgranted
              . exact .refused
      . exact .idle

theorem Change.of_loggedIn {login : Login} {name : String}
    (h : Change backend limit m line login) (hlogin : login = .loggedIn name)
    : m.login = .loggedIn name
        ∨
      m.login = .pending name ∧ ∃ password,
        Carries limit line "PASS" password ∧ backend m.calls ⟨name, password⟩ = .granted := by
  cases h with
  | idle => exact .inl hlogin
  | named hline => contradiction
  | granted hline hpending hgranted =>
    rw [← Login.loggedIn.inj hlogin]
    exact .inr ⟨hpending, _, hline, hgranted⟩
  | refused => contradiction

theorem Change.of_pending {login : Login} {name : String}
    (h : Change backend limit m line login) (hlogin : login = .pending name)
    : m.login = .pending name ∨ Carries limit line "USER" name := by
  cases h with
  | idle => exact .inl hlogin
  | named hline =>
    rw [← Login.pending.inj hlogin]
    exact .inr hline
  | granted hline hpending hgranted => contradiction
  | refused => contradiction

theorem exists_of_loggedIn_run {name : String} {lines : List (List UInt8)}
    (h : (run backend limit m lines).1.login = .loggedIn name)
    : m.login = .loggedIn name
        ∨
      (m.login = .pending name ∨ ∃ line ∈ lines.dropLast, Carries limit line "USER" name)
        ∧
      ∃ line ∈ lines, ∃ password past,
        Carries limit line "PASS" password ∧ backend past ⟨name, password⟩ = .granted := by
  induction lines generalizing m with
  | nil => exact .inl h
  | cons line lines ih =>
    have hchange := change_step backend limit m line
    have hrun : (run backend limit (step backend limit m line).1 lines).1.login
        = .loggedIn name := h
    rcases ih hrun with hlogin | ⟨hnamed, asked, hasked, hgranted⟩
    . rcases hchange.of_loggedIn hlogin with hbefore | ⟨hpending, password, hline, hgranted⟩
      . exact .inl hbefore
      . exact .inr ⟨.inl hpending, line, List.mem_cons_self, password, m.calls, hline, hgranted⟩
    . have hne : lines ≠ [] := List.ne_nil_of_mem hasked
      refine .inr ⟨?_, asked, List.mem_cons_of_mem line hasked, hgranted⟩
      rw [List.dropLast_cons_of_ne_nil hne]
      rcases hnamed with hpending | ⟨named, hnamed, hline⟩
      . rcases hchange.of_pending hpending with hbefore | hline
        . exact .inl hbefore
        . exact .inr ⟨line, List.mem_cons_self, hline⟩
      . exact .inr ⟨named, List.mem_cons_of_mem line hnamed, hline⟩

theorem Carries.step_eq {verb arg : String} (h : Carries limit line verb arg)
    (hverb : verb = "USER" ∨ verb = "PASS")
    : (step backend limit m line).1
        =
      (if verb = "USER" then user m arg else pass backend m arg).1 := by
  obtain ⟨token, args, hwords, htoken⟩ := h.words_eq
  have hlength := h.length_le
  unfold step
  rw [List.take_of_length_le hlength, hwords]
  dsimp only
  rw [if_neg (by omega), htoken, command, if_pos hverb]

def lineOf (verb arg : String) : List UInt8 :=
  Text.Utf8.encodeString (verb ++ " " ++ arg)

theorem length_lineOf (verb arg : String)
    : (lineOf verb arg).length = verb.utf8ByteSize + 1 + arg.utf8ByteSize := by
  unfold lineOf
  rw [Text.Utf8.length_encodeString, String.utf8ByteSize_append, String.utf8ByteSize_append]
  rfl

theorem lineOf_ne_nil (verb arg : String) : lineOf verb arg ≠ [] := by
  apply List.ne_nil_of_length_pos
  rw [length_lineOf]
  omega

theorem lf_not_mem_lineOf {verb arg : String} (hverb : Text.IsWord verb) (harg : Text.IsWord arg)
    : Framer.lf ∉ lineOf verb arg := by
  apply Text.Utf8.lf_not_mem_encodeString
  have hword : ∀ {s : String}, Text.IsWord s → '\n' ∉ s.toList := by
    intro s hs hmem
    have hblank := hs.not_blank _ hmem
    rw [Text.isBlank_lf] at hblank
    contradiction
  rw [String.toList_append, String.toList_append, List.mem_append, List.mem_append]
  rintro ((hmem | hmem) | hmem)
  . exact hword hverb hmem
  . revert hmem
    decide +kernel
  . exact hword harg hmem

theorem carries_lineOf {verb arg : String} (hverb : Text.IsWord verb)
    (hupper : verb.toUpper = verb) (harg : Text.IsWord arg)
    (hlength : (lineOf verb arg).length ≤ limit)
    : Carries limit (lineOf verb arg) verb arg := by
  constructor
  . exact hlength
  . refine ⟨verb, [], ?_, hupper⟩
    rw [lineOf, Text.Utf8.decodeString_encodeString, Text.words_of_two hverb harg]

end LoginMachine

structure Accounts.IsUsable (s : String) : Prop where
  ne_empty : s ≠ ""
  not_blank : ∀ c ∈ s.toList, Text.isBlank c = false
  not_nul : '\x00' ∉ s.toList
  size_le : s.utf8ByteSize ≤ 256

namespace Accounts

theorem isUsable_iff {s : String} : IsUsable s ↔ Text.IsWord s ∧ isWellFormed s = true := by
  unfold isWellFormed
  simp only [Bool.and_eq_true, bne_iff_ne, ne_eq, decide_eq_true_eq, List.all_eq_true]
  constructor
  . intro h
    have hne : ∀ {c d : Char}, c ∈ s.toList → Text.isBlank d = true → c ≠ d := by
      rintro c _ hc hblank rfl
      rw [h.not_blank c hc] at hblank
      contradiction
    refine ⟨⟨h.ne_empty, h.not_blank⟩, ⟨?_, h.size_le⟩, ?_⟩
    . rw [String.utf8ByteSize_eq_zero_iff]
      exact h.ne_empty
    . intro c hc
      refine ⟨⟨hne hc Text.isBlank_cr, hne hc Text.isBlank_lf⟩, ?_⟩
      rintro rfl
      exact h.not_nul hc
  . rintro ⟨hword, ⟨_, hsize⟩, hall⟩
    constructor
    . exact hword.ne_empty
    . exact hword.not_blank
    . intro hnul
      exact (hall _ hnul).2 rfl
    . exact hsize

theorem backend_eq_granted_iff (accounts : Accounts) (past : List Call) (user password : String)
    : accounts.backend past ⟨user, password⟩ = .granted
        ↔
      isWellFormed user = true ∧ isWellFormed password = true
        ∧ accounts.passwords[user]? = some password := by
  unfold backend Backend.ofFunction admits
  simp [and_assoc]

theorem isSome_consult_backend (auth : Authenticator) (accounts : Accounts) (past : List Call)
    (call : Call) : (auth.consult accounts.backend past call).isSome = true := by
  change (auth.conclude
    (if accounts.admits call.user call.password then .granted else .denied)).isSome = true
  split <;> rfl

end Accounts

namespace LoginMachine

def loginOf (name password : String) : List UInt8 :=
  lineOf "USER" name ++ Framer.lf :: lineOf "PASS" password

theorem loggedIn_run_loginOf {backend : Backend} {limit : Nat} {name password : String}
    (hname : Text.IsWord name) (hpassword : Text.IsWord password)
    (hgranted : backend [] ⟨name, password⟩ = .granted)
    (huser : 6 + name.utf8ByteSize ≤ limit) (hpass : 5 + password.utf8ByteSize ≤ limit)
    : (run backend limit {} (Framer.lines (loginOf name password))).1.login = .loggedIn name := by
  have hlines : Framer.lines (loginOf name password)
      = [lineOf "USER" name ++ [Framer.lf], lineOf "PASS" password] := by
    rw [loginOf, Framer.lines_append_lf _ _ (lf_not_mem_lineOf (Text.isWord_verb (.inl rfl)) hname),
      Framer.lines_of_not_mem _ (lineOf_ne_nil _ _)
        (lf_not_mem_lineOf (Text.isWord_verb (.inr rfl)) hpassword)]
  have huserSize : "USER".utf8ByteSize = 4 := rfl
  have hpassSize : "PASS".utf8ByteSize = 4 := rfl
  have hfirst : Carries limit (lineOf "USER" name ++ [Framer.lf]) "USER" name := by
    rw [carries_concat_lf, length_lineOf]
    refine ⟨carries_lineOf (Text.isWord_verb (.inl rfl)) (by cbv) hname ?_, by omega⟩
    rw [length_lineOf]
    omega
  have hsecond : Carries limit (lineOf "PASS" password) "PASS" password := by
    apply carries_lineOf (Text.isWord_verb (.inr rfl)) (by cbv) hpassword
    rw [length_lineOf]
    omega
  rw [hlines]
  simp only [run]
  rw [hfirst.step_eq (.inl rfl), hsecond.step_eq (.inr rfl)]
  simp [user, pass, hgranted]

end LoginMachine

namespace ServerConfig

variable (c : ServerConfig) {control : Channel} (data : Option Channel) (log : ConnectionLog)

theorem serve_loggedIn_iff (hvalid : c.validate = .ok ()) (hcontrol : control.Faultless)
    (user : String) (bytes : List UInt8)
    : let s : Session := { settings := c.sessionSettings, control, data }
      let served := s.serve (c.sessionSettings.auth.consult c.users.backend) (bytes.map .byte)
      (∃ termination,
        served.1.termination? log = some termination ∧ termination.state.currentUser? = some user)
        ↔
      (LoginMachine.run c.users.backend c.maxCommandLength.toNat {} (Framer.lines bytes)).1.login
          =
        .loggedIn user := by
  intro s served
  obtain ⟨_, _, _, hstate, _, hphase⟩ := Session.serve_eq_loginMachine c.welcomeMessage
    c.maxCommandLength.toNat ⟨c.authTimeout⟩ c.users.backend control data bytes
    (zero_lt_maxCommandLength hvalid) hcontrol
    (Accounts.isSome_consult_backend ⟨c.authTimeout⟩ c.users)
  change served.1.state = _ at hstate
  change served.1.phase = _ at hphase
  have htermination : served.1.termination? log
      = some ⟨log.session, log.peer, .peerClosed, served.1.state⟩ := by
    unfold Session.termination?
    rw [hphase]
  rw [htermination, hstate]
  simp only [Option.some.injEq, exists_eq_left', SessionState.currentUser?_eq_some_iff]

/--
Exactly these accounts can be logged in to, by whatever bytes: those whose name and password fit
into lines, and none if there is no number for the window that a line is read through.
-/
theorem exists_serveFrom64_loggedIn_iff (hvalid : c.validate = .ok ())
    (hcontrol : control.Faultless) {user : String} (huser : Text.Utf8.replacement ∉ user.toList)
    (hpassword : ∀ password, c.users.passwords[user]? = some password
      → Text.Utf8.replacement ∉ password.toList)
    : let s : Session := { settings := c.sessionSettings, control, data }
      let oracle := c.sessionSettings.auth.consult c.users.backend
      (∃ (src : Source) (bytes : List UInt8) (served : Session.Step) (termination : Termination),
        src.inputs = bytes.map .byte
          ∧
        s.serveFrom64 oracle src = some served
          ∧
        served.1.termination? log = some termination
          ∧
        termination.state.currentUser? = some user)
        ↔
      c.maxCommandLength.toNat + 1 < 2 ^ 64
        ∧
      ∃ password,
        c.users.passwords[user]? = some password
          ∧
        Accounts.IsUsable user
          ∧
        Accounts.IsUsable password
          ∧
        6 + user.utf8ByteSize ≤ c.maxCommandLength.toNat
          ∧
        5 + password.utf8ByteSize ≤ c.maxCommandLength.toNat := by
  intro s oracle
  have hlimit := zero_lt_maxCommandLength hvalid
  have hsession : s.settings.maxCommandLength = c.maxCommandLength.toNat := rfl
  constructor
  . rintro ⟨src, bytes, served, termination, hinputs, hserved, hended⟩
    have hroom64 : c.maxCommandLength.toNat + 1 < 2 ^ 64 := by
      have hbound := c.maxCommandLength.toNat_lt
      by_contra hlast
      have hlargest : s.settings.maxCommandLength + 1 = 2 ^ 64 := by
        rw [hsession]
        omega
      rw [Session.serveFrom64_of_largest oracle hlargest hcontrol] at hserved
      contradiction
    rw [Session.serveFrom64_eq_serve oracle (s := s) hlimit hroom64, hinputs] at hserved
    rw [← Option.some.inj hserved] at hended
    have hlogin := (c.serve_loggedIn_iff data log hvalid hcontrol user bytes).1
      ⟨termination, hended⟩
    have hcut := Framer.isCut_lines bytes
    rcases LoginMachine.exists_of_loggedIn_run hlogin
      with hbefore | ⟨hpending | ⟨named, hnamed, hname⟩, asked, _, password, past, hasked, hgranted⟩
    . contradiction
    . contradiction
    . obtain ⟨hwell, hwell', hfound⟩ := (Accounts.backend_eq_granted_iff _ _ _ _).1 hgranted
      -- A line follows the one with the name, so that one ends with an LF.
      obtain ⟨body, rfl⟩ := List.getLast?_eq_some_iff.1 (hcut.getLast?_eq named hnamed)
      obtain ⟨hbody, hroom⟩ := LoginMachine.carries_concat_lf.1 hname
      have hbodyLength := hbody.le_length (.inl rfl) huser
      have hlength := hasked.le_length (.inr rfl) (hpassword password hfound)
      have hle := hasked.length_le
      refine ⟨hroom64, password, hfound, ?_, ?_, by omega, by omega⟩
      . exact Accounts.isUsable_iff.2 ⟨hname.isWord, hwell⟩
      . exact Accounts.isUsable_iff.2 ⟨hasked.isWord, hwell'⟩
  . rintro ⟨hroom64, password, hfound, hname, hpass, huserRoom, hpassRoom⟩
    obtain ⟨hword, hwell⟩ := Accounts.isUsable_iff.1 hname
    obtain ⟨hword', hwell'⟩ := Accounts.isUsable_iff.1 hpass
    have hgranted := (Accounts.backend_eq_granted_iff c.users [] user password).2
      ⟨hwell, hwell', hfound⟩
    have hlogin := LoginMachine.loggedIn_run_loginOf hword hword' hgranted huserRoom hpassRoom
    obtain ⟨termination, hended⟩ :=
      (c.serve_loggedIn_iff data log hvalid hcontrol user _).2 hlogin
    have hinputs : Source.inputs ⟨LoginMachine.loginOf user password, []⟩
        = (LoginMachine.loginOf user password).map .byte := List.append_nil _
    have hserved := Session.serveFrom64_eq_serve oracle (s := s) hlimit hroom64
      ⟨LoginMachine.loginOf user password, []⟩
    rw [hinputs] at hserved
    exact ⟨_, _, _, termination, hinputs, hserved, hended⟩

theorem exists_serveFrom64_loggedIn_iff_of_two_names
    : let c : ServerConfig :=
        { maxCommandLength := 16
          users := .ofList [("é", "0123456789a"), ("0123456789é", "0123456789a")] }
      let control : Channel := { name := "control" }
      let log : ConnectionLog := ⟨"rax_ftp", 1, "[::1]:1"⟩
      let s : Session := { settings := c.sessionSettings, control }
      let oracle := c.sessionSettings.auth.consult c.users.backend
      c.validate = .ok ()
        ∧
      control.Faultless
        ∧
      (∃ (src : Source) (bytes : List UInt8) (served : Session.Step) (termination : Termination),
        src.inputs = bytes.map .byte
          ∧
        s.serveFrom64 oracle src = some served
          ∧
        served.1.termination? log = some termination
          ∧
        termination.state.currentUser? = some "é")
        ∧
      ¬ ∃ (src : Source) (bytes : List UInt8) (served : Session.Step) (termination : Termination),
        src.inputs = bytes.map .byte
          ∧
        s.serveFrom64 oracle src = some served
          ∧
        served.1.termination? log = some termination
          ∧
        termination.state.currentUser? = some "0123456789é" := by
  intro c control log s oracle
  have hproblem : c.problem? = none := by decide +kernel
  have hvalid : c.validate = .ok () := by
    unfold validate
    rw [hproblem]
  have hcontrol : control.Faultless := Channel.faultless_named _
  have hclean : ∀ s ∈ ["é", "0123456789é", "0123456789a"], Text.Utf8.replacement ∉ s.toList := by
    decide +kernel
  have hfound : ∀ name ∈ ["é", "0123456789é"],
      c.users.passwords[name]? = some "0123456789a" := by decide +kernel
  have husable : ∀ s ∈ ["é", "0123456789a"], Accounts.IsUsable s := by
    have hwell : ∀ s ∈ ["é", "0123456789a"], Accounts.isWellFormed s = true := by decide +kernel
    have hblank : ∀ s ∈ ["é", "0123456789a"], s.toList.any Text.isBlank = false := by
      decide +kernel
    intro s hs
    refine Accounts.isUsable_iff.2 ⟨⟨?_, ?_⟩, hwell s hs⟩
    . rintro rfl
      simp at hs
    . simpa using hblank s hs
  have hpassword : ∀ name ∈ ["é", "0123456789é"], ∀ password,
      c.users.passwords[name]? = some password → Text.Utf8.replacement ∉ password.toList := by
    intro name hname password h
    rw [hfound name hname] at h
    rw [← Option.some.inj h]
    exact hclean _ (by simp)
  have hshort := c.exists_serveFrom64_loggedIn_iff none log hvalid hcontrol (hclean "é" (by simp))
    (hpassword "é" (by simp))
  have hlong := c.exists_serveFrom64_loggedIn_iff none log hvalid hcontrol
    (hclean "0123456789é" (by simp)) (hpassword "0123456789é" (by simp))
  have hsizes : "é".utf8ByteSize = 2 ∧ "0123456789é".utf8ByteSize = 12
      ∧ "0123456789a".utf8ByteSize = 11 ∧ c.maxCommandLength.toNat = 16 := by decide +kernel
  refine ⟨hvalid, hcontrol, ?_, ?_⟩
  . have hname := husable "é" (by simp)
    have hpass := husable "0123456789a" (by simp)
    refine hshort.2 ⟨by omega, "0123456789a", hfound "é" (by simp), hname, hpass, ?_⟩
    omega
  . intro hserved
    obtain ⟨_, password, _, _, _, hroom, _⟩ := hlong.1 hserved
    omega

theorem exists_serveFrom64_loggedIn_iff_of_largest
    : let c : ServerConfig :=
        { maxCommandLength := 0xFFFFFFFFFFFFFFFF, users := .ofList [("a", "b")] }
      let control : Channel := { name := "control" }
      let s : Session := { settings := c.sessionSettings, control }
      let oracle := c.sessionSettings.auth.consult c.users.backend
      c.validate = .ok ()
        ∧
      control.Faultless
        ∧
      c.users.passwords["a"]? = some "b"
        ∧
      Accounts.IsUsable "a"
        ∧
      Accounts.IsUsable "b"
        ∧
      6 + "a".utf8ByteSize ≤ c.maxCommandLength.toNat
        ∧
      5 + "b".utf8ByteSize ≤ c.maxCommandLength.toNat
        ∧
      ∀ src, s.serveFrom64 oracle src = none := by
  intro c control s oracle
  have hproblem : c.problem? = none := by decide +kernel
  have hvalid : c.validate = .ok () := by
    unfold validate
    rw [hproblem]
  have hcontrol : control.Faultless := Channel.faultless_named _
  have husable : ∀ s ∈ ["a", "b"], Accounts.IsUsable s := by
    have hwell : ∀ s ∈ ["a", "b"], Accounts.isWellFormed s = true := by decide +kernel
    have hblank : ∀ s ∈ ["a", "b"], s.toList.any Text.isBlank = false := by decide +kernel
    intro s hs
    refine Accounts.isUsable_iff.2 ⟨⟨?_, ?_⟩, hwell s hs⟩
    . rintro rfl
      simp at hs
    . simpa using hblank s hs
  have hsizes : "a".utf8ByteSize = 1 ∧ "b".utf8ByteSize = 1
      ∧ c.maxCommandLength.toNat = 2 ^ 64 - 1 := by decide +kernel
  have hfound : c.users.passwords["a"]? = some "b" := by decide +kernel
  refine ⟨hvalid, hcontrol, hfound, husable "a" (by simp), husable "b" (by simp), by omega,
    by omega, ?_⟩
  apply Session.serveFrom64_of_largest oracle _ hcontrol
  dsimp only [s, sessionSettings]
  omega

end ServerConfig

end FtpControl
