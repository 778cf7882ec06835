import BoundaryProxy.Shell.Quoting

/-!
# `BoundaryProxy.Shell.Reader` — from text to commands

A script is read one complete command at a time: up to a newline that is not inside of anything. A flaw shows
only when all commands before it have run, so reading and running take turns.

Reading is by recursive descent with one token of lookahead. The fuel of the functions below bounds how deep
they call each other; `Reader.complete` gives them more than any text can use up.
-/

namespace BoundaryProxy.Shell

namespace Reader

/-! ## Tokens -/

/-- Keep a token as the last one. -/
def keep (t : Token) : Reader Token := do
  modify fun s => { s with token := t }
  return t

/-- The last token is to be read again. -/
def pushBack : Reader Unit :=
  modify fun s => { s with again := true }

/-- Look for something when the next token is read. -/
def lookFor (checks : Checks) : Reader Unit :=
  modify fun s => { s with checks }

/-- Skip a comment. -/
def skipComment : Nat → Reader Unit
  | 0 => return ()
  | fuel + 1 => do
    match ← peek with
    | none => return ()
    | some '\n' => return ()
    | some _ =>
      advance
      skipComment fuel

/-- The operator that the next characters make, if they make one; blanks and comments before it are skipped. -/
def operator : Nat → Reader (Option Token)
  | 0 => return some .endOfFile
  | fuel + 1 => do
    match ← peekJoined with
    | none => return some .endOfFile
    | some c =>
      let simple (t : Token) : Reader (Option Token) := do
        advance
        return some t
      let double (twice once : Token) : Reader (Option Token) := do
        advance
        return some (if ← skipIf c then twice else once)
      match c with
      | ' ' =>
        advance
        operator fuel
      | '\t' =>
        advance
        operator fuel
      | '#' =>
        skipComment fuel
        operator fuel
      | '\n' => simple .newline
      | '&' => double .both .ampersand
      | '|' => double .either .bar
      | ';' => double .armEnd .semicolon
      | '(' => simple .parenOpen
      | ')' => simple .parenClose
      | _ => return none

/-- Read the sign of a redirection after its descriptor, which has a default for either direction. -/
def redirectHead (descriptor : Option Nat) : Reader RedirectHead := do
  let sign ← next
  let follow ← peekJoined
  let out := descriptor.getD 1
  let into := descriptor.getD 0
  let take (head : RedirectHead) : Reader RedirectHead := do
    advance
    return head
  if sign == some '>' then
    match follow with
    | some '>' => take (.file out .append)
    | some '|' => take (.file out .overwrite)
    | some '&' => take (.duplicate out)
    | _ => return .file out .output
  else
    match follow with
    | some '<' =>
      advance
      return .document into (← skipIf '-')
    | some '&' => take (.duplicate into)
    | some '>' => take (.file into .inputOutput)
    | _ => return .file into .input

/-! ## Parameters -/

/-- Read the characters that satisfy a condition. -/
def takeWhile (p : Char → Bool) : Nat → Reader (List Char)
  | 0 => return []
  | fuel + 1 => do
    match ← peekJoined with
    | none => return []
    | some c =>
      if p c then
        advance
        return c :: (← takeWhile p fuel)
      else return []

/-- The name of a parameter in braces, and whether its length is asked for. No name is none of them. -/
def bracedName (fuel : Nat) : Reader (Option String × Bool) := do
  match ← peekJoined with
  | none => return (none, false)
  | some c =>
    if isNameStart c then return (some (String.ofList (← takeWhile isNameChar fuel)), false)
    else if c.isDigit then return (some (String.ofList (← takeWhile Char.isDigit fuel)), false)
    else if c == '\x7d' then return (none, false)
    else
      let _ ← nextInHead
      if c != '#' then
        return (if isSpecialParam c then some (String.singleton c) else none, false)
      else
        match ← peekJoined with
        | none => return (some "#", false)
        | some d =>
          if isNameStart d then return (some (String.ofList (← takeWhile isNameChar fuel)), true)
          else if d.isDigit then return (some (String.ofList (← takeWhile Char.isDigit fuel)), true)
          else if d == '\x7d' then return (some "#", false)
          else
            let before ← get
            let _ ← nextInHead
            if (← peekJoined) == some '\x7d' then
              return (if isSpecialParam d then some (String.singleton d) else none, isSpecialParam d)
            else
              set before
              return (some "#", false)

/-- What a word takes from a parameter in braces, by what follows the name, and whether an empty value counts
    as missing. -/
def paramUse : Reader (ParamUse × Bool) := do
  let emptyIsMissing ← skipIf ':'
  skipJoins
  let c ← nextInHead
  match c with
  | some '\x7d' => return (.value, emptyIsMissing)
  | some '-' => return (.fallback, emptyIsMissing)
  | some '+' => return (.replace, emptyIsMissing)
  | some '?' => return (.require, emptyIsMissing)
  | some '=' => return (.assign, emptyIsMissing)
  | some '%' => if emptyIsMissing then return (.malformed, true) else return (.dropEnd (← skipIf '%'), false)
  | some '#' => if emptyIsMissing then return (.malformed, true) else return (.dropStart (← skipIf '#'), false)
  | _ => return (.malformed, emptyIsMissing)

/-- Whether a pattern follows in the braces of a parameter. -/
def takesPattern : ParamUse → Bool
  | .dropStart _ => true
  | .dropEnd _ => true
  | _ => false

/-- The level on which the rest of a parameter in braces is read, and the levels around it: a pattern is read
    like a word of its own, and quotes that were opened inside of other braces do not reach into these. -/
def braceLevel (use : ParamUse) (level : Level) (outer : List Level) : Level × List Level :=
  let quoting :=
    if takesPattern use then .plain
    else if level.quoting == .arithmetic then .double
    else level.quoting
  let (level, outer) :=
    if quoting != level.quoting || level.innerQuote then
      ({ quoting, ofBrace := true, isDouble := quoting != .plain }, level :: outer)
    else (level, outer)
  ({ level with
      braces := level.braces + 1
      quotedBraces := if level.isDouble then level.quotedBraces + 1 else level.quotedBraces }, outer)

/-! ## Levels -/

/-- The level after a double quote that opens or closes. -/
def toggled (level : Level) : Level :=
  if level.braces > 0 then { level with innerQuote := !level.innerQuote } else level

/-- The level after a quote that closes. -/
def unquoted (level : Level) : Level :=
  if level.quotedBraces == 0 then { level with quoting := .plain, isDouble := false } else level

/-- The levels after a brace that closes a parameter. -/
def braceClosed (level : Level) (outer : List Level) : Level × List Level :=
  let inner := { level with braces := level.braces - 1 }
  if inner.braces == 0 && level.ofBrace then
    match outer with
    | around :: outer => (around, outer)
    | [] => (inner, [])
  else ({ inner with quotedBraces := inner.quotedBraces - 1 }, outer)

/-- Whether a backslash before a character stands for itself too. -/
def keepsBackslash (inDocument : Bool) (level : Level) (c : Char) : Bool :=
  level.isDouble && c != '\\' && c != '\x60' && c != '$' &&
    (c != '"' || (inDocument && level.braces == 0)) && (c != '\x7d' || level.braces == 0)

/-- The script in backquotes: up to the next one that no backslash stands before. -/
def backquoted (level : Level) : Nat → Reader (List Char)
  | 0 => return []
  | fuel + 1 => do
    match ← nextJoined with
    | none => refuse "EOF in backquote substitution"
    | some '\x60' => return []
    | some '\\' =>
      match ← next with
      | none => refuse "EOF in backquote substitution"
      | some c =>
        let escapes := c == '\\' || c == '\x60' || c == '$' || (level.isDouble && c == '"')
        let rest ← backquoted level fuel
        return if escapes then c :: rest else '\\' :: c :: rest
    | some c => return c :: (← backquoted level fuel)

/-- The atoms at the end of a word, unless something in it is still open. -/
def wordEnd (inDocument : Bool) (level : Level) (done : List Atom) (quoted : Bool) :
    Reader (List Atom × Bool) := do
  if level.quoting == .arithmetic then refuse "Missing '))'"
  else if level.quoting != .plain && !inDocument then refuse "Unterminated quoted string"
  else if level.braces != 0 then refuse "Missing '\x7d'"
  else return (done, quoted)

/-- Two commands one after the other. -/
def sequenced : Option Command → Command → Option Command
  | none, next => some next
  | some first, next => some (.sequence first next)

/-- A command that is not waited for. -/
def inBackground : Command → Command
  | .redirected line body redirects => .background line body redirects
  | .subshell line body redirects => .background line (.subshell line body redirects) []
  | body => .background 0 body []

/-- The word that stands for all arguments. -/
def allArguments : Word :=
  [.quote, .param "@" .value false [], .quote]

/-- The commands whose names no function may have. -/
def specialCommands : List String :=
  [".", ":", "break", "continue", "eval", "exec", "exit", "export", "local", "readonly", "return", "set",
    "shift", "times", "trap", "unset"]

/-- A list of commands ends with a newline, runs on over lines, or may be empty. -/
inductive ListKind where
  | line
  | block
  | optional
deriving DecidableEq

/-- The token of a redirection. -/
def redirectionToken (descriptor : Option Nat) : Reader Token := do
  let redirect ← redirectHead descriptor
  modify fun s => { s with redirect }
  keep .redirection

/-- The token of a word, of which the atoms are given, the last one first. -/
def keepWord (done : List Atom) (quoted : Bool) : Reader Token := do
  modify fun s => { s with word := wordOf done.reverse, quoted }
  keep .word

/-- A simple command, before the token that ends it; its parts stand the last first. -/
def simpleEnd (line : Nat) (assigns words : List Word) (redirects : List Redirect) : Reader Command := do
  pushBack
  return .simple line assigns.reverse words.reverse redirects.reverse

/-! ## Words and commands -/

mutual

/-- Read the atoms of a word, the last one first, and whether anything is quoted. For a here-document the line
    that ends it and whether tabs are dropped are given. -/
def atoms : Nat → Option (List Char × Bool) → Bool → Level → List Level → List Atom → Bool →
    Reader (List Atom × Bool)
  | 0, _, _, _, _, _, _ => refuse "word too long"
  | fuel + 1, document, lineStart, level, outer, done, quoted => do
    let ended ← match document with
      | some (mark, dropsTabs) => if lineStart then skipMark mark dropsTabs else pure false
      | none => pure false
    if ended then wordEnd document.isSome level done quoted
    else
      if level.quoting != .single then skipJoins
      match ← peek with
      | none => wordEnd document.isSome level done quoted
      | some c =>
        let goOn (level : Level) (outer : List Level) (done : List Atom) (quoted : Bool) :
            Reader (List Atom × Bool) := do
          advance
          atoms fuel document false level outer done quoted
        let stay (done : List Atom) : Reader (List Atom × Bool) := goOn level outer done quoted
        let marked : List Atom := if document.isNone then .quote :: done else done
        match level.quoting.role c with
        | .newline =>
          if level.quoting == .plain && level.braces == 0 then wordEnd document.isSome level done quoted
          else
            advance
            atoms fuel document true level outer (.char c false :: done) quoted
        | .plain => stay (.char c false :: done)
        | .sign => stay (.char c (document.isNone || level.isDouble || level.braces > 0) :: done)
        | .backslash =>
          advance
          match ← peek with
          | none => atoms fuel document false level outer (.char '\\' true :: done) quoted
          | some d =>
            let done := if keepsBackslash document.isSome level d then .char '\\' true :: done else done
            goOn level outer (.char d true :: done) true
        | .singleQuote => goOn { level with quoting := .single } outer marked quoted
        | .doubleQuote => goOn (toggled { level with quoting := .double, isDouble := true }) outer marked quoted
        | .endQuote =>
          if document.isSome && level.braces == 0 then stay (.char c false :: done)
          else
            let level := unquoted level
            goOn (if c == '"' then toggled level else level) outer marked true
        | .dollar =>
          advance
          dollar fuel document level outer done quoted
        | .braceClose =>
          if !level.innerQuote && level.braces > 0 then
            let (level, outer) := braceClosed level outer
            goOn level outer (.braceClose :: done) quoted
          else stay (.char c false :: done)
        | .parenOpen => goOn { level with parens := level.parens + 1 } outer (.char c false :: done) quoted
        | .parenClose =>
          if level.parens > 0 then
            goOn { level with parens := level.parens - 1 } outer (.char c false :: done) quoted
          else
            advance
            if ← skipIf ')' then
              match outer with
              | around :: outer => atoms fuel document false around outer (.arithmeticClose :: done) quoted
              | [] => atoms fuel document false level [] (.arithmeticClose :: done) quoted
            else atoms fuel document false level outer (.char c false :: done) quoted
        | .backquote =>
          advance
          let script ← backquoted level fuel
          let body ← nested fuel script
          atoms fuel document false level outer (.output body :: done) quoted
        | .divider =>
          if level.braces == 0 then wordEnd document.isSome level done quoted else stay (.char c false :: done)

/-- Read the atoms of a word after a dollar sign. -/
def dollar : Nat → Option (List Char × Bool) → Level → List Level → List Atom → Bool →
    Reader (List Atom × Bool)
  | 0, _, _, _, _, _ => refuse "word too long"
  | fuel + 1, document, level, outer, done, quoted => do
    let goOn (level : Level) (outer : List Level) (done : List Atom) : Reader (List Atom × Bool) :=
      atoms fuel document false level outer done quoted
    let c ← peekJoined
    let begins (p : Char → Bool) : Bool := (c.map p).getD false
    if (← get).checks.literal ||
        !begins (fun c => c == '(' || c == '\x7b' || isNameStart c || isSpecialParam c) then
      goOn level outer (.char '$' false :: done)
    else if c == some '(' then
      advance
      if ← skipIf '(' then
        goOn { quoting := .arithmetic, isDouble := true } (level :: outer) (.arithmeticOpen :: done)
      else
        let body ← substitution fuel
        goOn level outer (.output body :: done)
    else if c == some '\x7b' then
      advance
      match ← bracedName fuel with
      | (none, _) =>
        let (level, outer) := braceLevel .malformed level outer
        goOn level outer (.braceOpen "" .malformed false :: done)
      | (some name, true) =>
        let use : ParamUse := if (← peekJoined) == some '\x7d' then .length else .malformed
        let (level, outer) := braceLevel use level outer
        goOn level outer (.braceOpen name use false :: done)
      | (some name, false) =>
        match ← paramUse with
        | (.value, false) => goOn level outer (.param name :: done)
        | (use, emptyIsMissing) =>
          let (level, outer) := braceLevel use level outer
          goOn level outer (.braceOpen name use emptyIsMissing :: done)
    else if begins isNameStart then
      goOn level outer (.param (String.ofList (← takeWhile isNameChar fuel)) :: done)
    else
      advance
      goOn level outer (.param (String.ofList c.toList) :: done)

/-- Read the commands in parentheses after a dollar sign. -/
def substitution : Nat → Reader Command
  | 0 => refuse "word too long"
  | fuel + 1 => do
    let announced := (← get).announced
    modify fun s => { s with announced := [] }
    let body ← commands fuel .optional
    if (← token fuel) != .parenClose then unexpected (some .parenClose)
    modify fun s => { s with announced }
    return body

/-- Read a script of its own, whose lines are counted anew. -/
def nested : Nat → List Char → Reader Command
  | 0, _ => refuse "word too long"
  | fuel + 1, text => do
    let before ← get
    set { before with text, line := 1, again := false, announced := [], checks := {} }
    let body ← commands fuel .optional
    modify fun s =>
      { s with
        text := before.text
        line := before.line
        again := false
        announced := before.announced
        checks := before.checks }
    return body

/-- Read a word, or a redirection up to its target. -/
def wordToken : Nat → Reader Token
  | 0 => refuse "word too long"
  | fuel + 1 => do
    let (done, quoted) ← atoms fuel none false (.start .plain) [] [] false
    let c ← peek
    let sign := c == some '>' || c == some '<'
    match done with
    | [] =>
      if sign && !quoted then redirectionToken none else keepWord [] quoted
    | [.char d false] =>
      if sign && !quoted && d.isDigit then redirectionToken (some (d.toNat - '0'.toNat)) else keepWord done quoted
    | _ => keepWord done quoted

/-- Read the next token as it stands. -/
def rawToken : Nat → Reader Token
  | 0 => refuse "script too long"
  | fuel + 1 => do
    let s ← get
    if s.again then
      set { s with again := false }
      return s.token
    else
      match ← operator fuel with
      | some t => keep t
      | none => wordToken fuel

/-- Read tokens until one is no newline. -/
def pastNewlines : Nat → Token → Reader Token
  | 0, t => return t
  | fuel + 1, t => do
    if t != .newline then return t
    else
      readDocuments fuel
      pastNewlines fuel (← rawToken fuel)

/-- Read the next token with the checks that were asked for. -/
def token : Nat → Reader Token
  | 0 => refuse "script too long"
  | fuel + 1 => do
    let checks := (← get).checks
    let t ← rawToken fuel
    let t ← if checks.newlines then pastNewlines fuel t else pure t
    let s ← get
    set { s with checks := {} }
    match t, s.quoted, bareText? s.word with
    | .word, false, some name =>
      if checks.keywords && Token.keywords.contains name then keep (.keyword name) else return t
    | _, _, _ => return t

/-- Read the texts of the here-documents that were announced. -/
def readDocuments : Nat → Reader Unit
  | 0 => return ()
  | fuel + 1 => do
    match (← get).announced with
    | [] => return ()
    | d :: announced =>
      modify fun s => { s with announced }
      let checks := (← get).checks
      lookFor {}
      let start : Level := if d.expands then .start .double else .start .single
      let (done, _) ← atoms fuel (some (d.mark, d.dropsTabs)) true start [] [] false
      lookFor checks
      modify fun s => { s with documents := (d.number, wordOf done.reverse) :: s.documents }
      readDocuments fuel

/-- Read the target of the redirection that was begun. -/
def redirection : Nat → Reader Redirect
  | 0 => refuse "script too long"
  | fuel + 1 => do
    match (← get).redirect with
    | .file descriptor mode => return .file descriptor mode (← target fuel {})
    | .duplicate descriptor => return .duplicate descriptor (← target fuel {})
    | .document descriptor dropsTabs =>
      let mark ← target fuel { literal := true }
      let s ← get
      let number := s.count
      let d : Announced := ⟨number, plainText mark, dropsTabs, !s.quoted⟩
      set { s with announced := s.announced ++ [d], count := number + 1 }
      return .document descriptor number d.expands

/-- Read the word of a target. -/
def target : Nat → Checks → Reader Word
  | 0, _ => refuse "script too long"
  | fuel + 1, checks => do
    lookFor checks
    if (← token fuel) != .word then unexpected
    return (← get).word

/-- Read redirections as long as there are any. -/
def redirections : Nat → Reader (List Redirect)
  | 0 => refuse "script too long"
  | fuel + 1 => do
    if (← token fuel) != .redirection then
      pushBack
      return []
    else
      let r ← redirection fuel
      return r :: (← redirections fuel)

/-- Read a list of commands. -/
def commands : Nat → ListKind → Reader Command
  | 0, _ => refuse "script too long"
  | fuel + 1, kind => return (← listFrom fuel kind none).getD .nothing

/-- Read the rest of a list of commands; at the end of the script a line is nothing at all. -/
def listFrom : Nat → ListKind → Option Command → Reader (Option Command)
  | 0, _, _ => refuse "script too long"
  | fuel + 1, kind, before => do
    lookFor (if kind == .line then Checks.command else Checks.anyLine)
    let t ← token fuel
    if t == .newline then
      readDocuments fuel
      return some (before.getD .nothing)
    else if t == .endOfFile then
      readDocuments fuel
      let _ ← keep .endOfFile
      pushBack
      return before
    else
      pushBack
      let mayEnd := kind == .optional || (kind == .block && before.isSome)
      if mayEnd && t.endsList then return before
      else
        let c ← andOr fuel
        match ← token fuel with
        | .ampersand => listFrom fuel kind (sequenced before (inBackground c))
        | .semicolon => listFrom fuel kind (sequenced before c)
        | .newline =>
          pushBack
          listFrom fuel kind (sequenced before c)
        | .endOfFile =>
          pushBack
          listFrom fuel kind (sequenced before c)
        | _ =>
          if kind == .line then unexpected
          else
            pushBack
            return sequenced before c

/-- Read pipelines of which each depends on how the one before it ends. -/
def andOr : Nat → Reader Command
  | 0 => refuse "script too long"
  | fuel + 1 => do
    let first ← pipeline fuel
    andOrFrom fuel first

/-- Read the pipelines that depend on a command. -/
def andOrFrom : Nat → Command → Reader Command
  | 0, _ => refuse "script too long"
  | fuel + 1, left => do
    match ← token fuel with
    | .both =>
      lookFor .anyLine
      let right ← pipeline fuel
      andOrFrom fuel (.both left right)
    | .either =>
      lookFor .anyLine
      let right ← pipeline fuel
      andOrFrom fuel (.either left right)
    | _ =>
      pushBack
      return left

/-- Read a pipeline. -/
def pipeline : Nat → Reader Command
  | 0 => refuse "script too long"
  | fuel + 1 => do
    let negated ← do
      if (← token fuel) == .keyword "!" then
        lookFor .command
        pure true
      else
        pushBack
        pure false
    let first ← command fuel
    let stages ← stagesFrom fuel
    let body := if stages.isEmpty then first else .pipe (first :: stages)
    return if negated then .negate body else body

/-- Read the further stages of a pipeline. -/
def stagesFrom : Nat → Reader (List Command)
  | 0 => refuse "script too long"
  | fuel + 1 => do
    if (← token fuel) != .bar then
      pushBack
      return []
    else
      lookFor .anyLine
      let c ← command fuel
      return c :: (← stagesFrom fuel)

/-- Read a token that must follow. -/
def expect : Nat → Token → Reader Unit
  | 0, _ => refuse "script too long"
  | fuel + 1, wanted => do
    if (← token fuel) != wanted then unexpected (some wanted)

/-- Read a command. -/
def command : Nat → Reader Command
  | 0 => refuse "script too long"
  | fuel + 1 => do
    let line := (← get).line
    match ← token fuel with
    | .keyword "if" =>
      let body ← condition fuel
      expect fuel (.keyword "fi")
      withRedirections fuel line body
    | .keyword "while" => loopOf fuel line true
    | .keyword "until" => loopOf fuel line false
    | .keyword "for" =>
      let body ← forLoop fuel line
      withRedirections fuel line body
    | .keyword "case" =>
      if (← token fuel) != .word then unexpected (some .word)
      let word := (← get).word
      lookFor .anyLine
      expect fuel (.keyword "in")
      let arms ← armsFrom fuel
      withRedirections fuel line (.select line word arms)
    | .parenOpen =>
      let body ← commands fuel .block
      expect fuel .parenClose
      lookFor .command
      return .subshell line body (← redirections fuel)
    | .keyword "\x7b" =>
      let body ← commands fuel .block
      expect fuel (.keyword "\x7d")
      withRedirections fuel line body
    | .word =>
      pushBack
      simple fuel
    | .redirection =>
      pushBack
      simple fuel
    | _ => unexpected

/-- Read a loop whose keyword has been read. -/
def loopOf : Nat → Nat → Bool → Reader Command
  | 0, _, _ => refuse "script too long"
  | fuel + 1, line, whileTrue => do
    let condition ← commands fuel .block
    expect fuel (.keyword "do")
    let body ← commands fuel .block
    expect fuel (.keyword "done")
    withRedirections fuel line (.loop whileTrue condition body)

/-- Read the redirections after a command. Braces around nothing but a subshell are the same as that subshell, and
    redirections behind them take the place of its own. -/
def withRedirections : Nat → Nat → Command → Reader Command
  | 0, _, _ => refuse "script too long"
  | fuel + 1, line, body => do
    lookFor .command
    let rs ← redirections fuel
    match body with
    | .subshell line body own => return .subshell line body (if rs.isEmpty then own else rs)
    | body => return if rs.isEmpty then body else .redirected line body rs

/-- Read a condition and what depends on it, up to the word that ends it all. -/
def condition : Nat → Reader Command
  | 0 => refuse "script too long"
  | fuel + 1 => do
    let test ← commands fuel .block
    expect fuel (.keyword "then")
    let body ← commands fuel .block
    match ← token fuel with
    | .keyword "elif" => return .choose test body (← condition fuel)
    | .keyword "else" => return .choose test body (← commands fuel .block)
    | _ =>
      pushBack
      return .choose test body .nothing

/-- Read a loop over words. -/
def forLoop : Nat → Nat → Reader Command
  | 0, _ => refuse "script too long"
  | fuel + 1, line => do
    let t ← token fuel
    let s ← get
    let name := (bareText? s.word).getD ""
    if t != .word || s.quoted || !isName name.toList then refuse "Bad for loop variable"
    lookFor .anyLine
    let words ← do
      match ← token fuel with
      | .keyword "in" =>
        let words ← wordsFrom fuel
        let t := (← get).token
        if t != .newline && t != .semicolon then unexpected
        pure words
      | .semicolon => pure [allArguments]
      | _ =>
        pushBack
        pure [allArguments]
    lookFor .anyLine
    expect fuel (.keyword "do")
    let body ← commands fuel .block
    expect fuel (.keyword "done")
    return .each line name words body

/-- Read words as long as there are any. -/
def wordsFrom : Nat → Reader (List Word)
  | 0 => refuse "script too long"
  | fuel + 1 => do
    if (← token fuel) == .word then
      let w := (← get).word
      return w :: (← wordsFrom fuel)
    else return []

/-- Read the arms after the head of a `case`. -/
def armsFrom : Nat → Reader (List (List Word × Command))
  | 0 => refuse "script too long"
  | fuel + 1 => do
    lookFor { newlines := true, keywords := true }
    let t ← token fuel
    if t == .keyword "esac" then return []
    else
      if t == .parenOpen then
        let _ ← token fuel
      let patterns ← patternsFrom fuel
      if (← get).token != .parenClose then unexpected (some .parenClose)
      let body ← commands fuel .optional
      lookFor { newlines := true, keywords := true }
      let t ← token fuel
      if t == .keyword "esac" then return [(patterns, body)]
      else if t != .armEnd then unexpected (some .armEnd)
      else return (patterns, body) :: (← armsFrom fuel)

/-- The word that was read last and those after bars. -/
def patternsFrom : Nat → Reader (List Word)
  | 0 => refuse "script too long"
  | fuel + 1 => do
    let w := (← get).word
    if (← token fuel) == .bar then
      let _ ← token fuel
      return w :: (← patternsFrom fuel)
    else return [w]

/-- Read a simple command, or the definition of a function. -/
def simple : Nat → Reader Command
  | 0 => refuse "script too long"
  | fuel + 1 => do
    let line := (← get).line
    simpleFrom fuel line [] [] []

/-- Read the rest of a simple command; what has been read of it stands the last first. -/
def simpleFrom : Nat → Nat → List Word → List Word → List Redirect → Reader Command
  | 0, _, _, _, _ => refuse "script too long"
  | fuel + 1, line, assigns, words, redirects => do
    lookFor {}
    match ← token fuel with
    | .word =>
      let w := (← get).word
      if words.isEmpty && isAssignment w then simpleFrom fuel line (w :: assigns) words redirects
      else simpleFrom fuel line assigns (w :: words) redirects
    | .redirection =>
      let r ← redirection fuel
      simpleFrom fuel line assigns words (r :: redirects)
    | .parenOpen =>
      match words, assigns, redirects with
      | [name], [], [] =>
        expect fuel .parenClose
        let name := (bareText? name).getD ""
        if !isName name.toList || specialCommands.contains name then refuse "Bad function name"
        lookFor .anyLine
        let definedAt := (← get).line
        let body ← command fuel
        return .define definedAt name body
      | _, _, _ => simpleEnd line assigns words redirects
    | _ => simpleEnd line assigns words redirects

end

/-- Fuel for reading a script: each call reads something or goes one level deeper into the grammar. -/
def fuelFor (s : Cursor) : Nat :=
  64 * (s.text.length + 64)

/-- Read a complete command; `none` at the end of the script. -/
def complete : Reader (Option Command) := do
  modify fun s => { s with again := false, checks := {}, announced := [] }
  let fuel := fuelFor (← get)
  listFrom fuel .line none

/-- Read a text as if it stood between double quotes. -/
def quotedText : Reader Word := do
  let fuel := fuelFor (← get)
  let (done, _) ← atoms fuel (some (['\n'], false)) false (.start .double) [] [] false
  return wordOf done.reverse

end Reader

end BoundaryProxy.Shell
