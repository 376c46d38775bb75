import OnlineFeatures.Text.Quoted
import OnlineFeatures.Text.Digit

/-!
# Command-line options

How words of a command line are told apart. A word is an option by its first character, in full, by
an unambiguous beginning of a long name, or as one letter with its value or further letters
attached; a value may also follow an equals sign or stand in the next word. All words are told apart
before any is acted on.
-/

namespace OnlineFeatures

/-- The options of one command. The names stand in the order in which they are declared. -/
structure OptionGrammar (ο : Type) where
  names : List (String × ο)
  /-- Whether an option takes a value. -/
  takesValue : ο → Bool
  /-- How messages name an option. -/
  display : ο → String
  /-- Whether the first word that is no option is a command which takes all the words after it. -/
  hasCommand : Bool

/-- An option as it is used in a word. -/
structure OptionUse (ο : Type) where
  /-- The option, unless the word only looks like one. -/
  option : Option ο
  /-- Whether it is used by one letter. -/
  isShort : Bool
  /-- The text attached to it, and whether an equals sign is between. -/
  attached : Option (Bool × List Char)

/-- What a word is. -/
inductive WordClass (ο : Type) where
  | plain
  /-- The word after which no word is an option. -/
  | separator
  | option (use : OptionUse ο)

namespace OptionGrammar

variable {ο : Type}

/-! ## Telling words apart -/

/-- The option of a full name. -/
def option? (g : OptionGrammar ο) (name : String) : Option ο := g.names.lookup name

/-- Whether a name is one letter behind one dash. -/
def isShortName (cs : List Char) : Bool := cs[1]? != some '-'

/-- The text before an equals sign and the text after it. -/
def splitEquals (cs : List Char) : Option (List Char × List Char) :=
  match cs.dropWhile (· ≠ '=') with
  | _ :: value => some (cs.takeWhile (· ≠ '='), value)
  | [] => none

/-- The uses that a word which is no full name may be meant as, with the names meant. -/
def candidates (g : OptionGrammar ο) (cs : List Char) : List (String × OptionUse ο) :=
  if isShortName cs then
    g.names.filterMap fun (name, o) =>
      if name.toList = cs.take 2 then some (name, ⟨some o, true, some (false, cs.drop 2)⟩)
      else if cs.isPrefixOf name.toList then
        some (name, ⟨some o, isShortName name.toList, none⟩)
      else none
  else
    let (start, value) := match splitEquals cs with
      | some (start, value) => (start, some (true, value))
      | none => (cs, none)
    g.names.filterMap fun (name, o) =>
      if start.isPrefixOf name.toList then some (name, ⟨some o, false, value⟩) else none

/-- Whether a word is a negative number. -/
def isNegativeNumber (cs : List Char) : Bool :=
  let isDigit (c : Char) : Bool := (digitValue? c).isSome
  let body := match cs.reverse with
    | '\n' :: r => r.reverse
    | _ => cs
  match body with
  | '-' :: r =>
    match r.dropWhile isDigit with
    | [] => !r.isEmpty
    | '.' :: d => !d.isEmpty && d.all isDigit
    | _ => false
  | _ => false

/-- What a word is; the error is a message about a beginning that fits several options. -/
def classify (g : OptionGrammar ο) (word : String) : Except String (WordClass ο) :=
  let cs := word.toList
  if cs.head? ≠ some '-' ∨ cs.length = 1 then .ok .plain
  else
    match g.option? word with
    | some o => .ok (.option ⟨some o, isShortName cs, none⟩)
    | none =>
      let exact := (splitEquals cs).bind fun (name, value) =>
        (g.option? (String.ofList name)).map fun o =>
          (⟨some o, isShortName name, some (true, value)⟩ : OptionUse ο)
      match exact with
      | some use => .ok (.option use)
      | none =>
        match g.candidates cs with
        | [(_, use)] => .ok (.option use)
        | [] =>
          if isNegativeNumber cs ∨ ' ' ∈ cs then .ok .plain
          else .ok (.option ⟨none, false, none⟩)
        | several =>
          .error ("ambiguous option: " ++ word ++ " could match " ++
            String.intercalate ", " (several.map (·.1)))

/-- What all words are. -/
def classifyAll (g : OptionGrammar ο) : List String → Except String (List (String × WordClass ο))
  | [] => .ok []
  | word :: words =>
    if word = "--" then .ok ((word, .separator) :: words.map (·, .plain))
    else do
      let c ← g.classify word
      let cs ← g.classifyAll words
      .ok ((word, c) :: cs)

/-! ## Attached text -/

/-- What one word asks for: options with their values, one option that takes its value from the next
word, and what is left over. -/
structure WordActions (ο : Type) where
  actions : List (ο × Option (List Char))
  waiting : Option ο
  extra : Option (List Char)

def optionMessage (g : OptionGrammar ο) (o : ο) (text : String) : String :=
  "argument " ++ g.display o ++ ": " ++ text

/-- The message about a text attached to an option that takes none. -/
def ignoredMessage (g : OptionGrammar ο) (o : ο) (text : List Char) : String :=
  g.optionMessage o ("ignored explicit argument " ++ quoted (String.ofList text))

/-- An option without attached text. -/
def unattached (g : OptionGrammar ο) (o : ο) : WordActions ο :=
  if g.takesValue o then ⟨[], some o, none⟩ else ⟨[(o, none)], none, none⟩

/-- One more option in front. -/
def WordActions.cons (o : ο) (w : WordActions ο) : WordActions ο :=
  { w with actions := (o, none) :: w.actions }

/-- An option with attached text: its value, or further letters, each an option of its own. -/
def attached (g : OptionGrammar ο) (o : ο) (isShort equals : Bool) (text : List Char) :
    Except String (WordActions ο) :=
  if g.takesValue o then .ok ⟨[(o, some text)], none, none⟩
  else
    match text with
    | [] => .error (g.ignoredMessage o text)
    | c :: rest =>
      if !isShort || equals || c == '-' then .error (g.ignoredMessage o text)
      else
        match g.option? (String.ofList ['-', c]) with
        | none => .ok ⟨[(o, none)], none, some ('-' :: c :: rest)⟩
        | some next =>
          match rest with
          | [] => .ok ((g.unattached next).cons o)
          | '=' :: value => (g.attached next true true value).map (·.cons o)
          | d :: more => (g.attached next true false (d :: more)).map (·.cons o)
termination_by text.length

/-- What the use of an option asks for. -/
def actionsOf (g : OptionGrammar ο) (o : ο) (use : OptionUse ο) : Except String (WordActions ο) :=
  match use.attached with
  | some (equals, text) => g.attached o use.isShort equals text
  | none => .ok (g.unattached o)

end OptionGrammar

/-! ## Reading a command line -/

/-- Why reading stops: a message for the user, or the user's wish for help. -/
inductive UsageStop where
  | message (text : String)
  | help
  deriving DecidableEq, Repr

/-- What a command line comes to: the state after all options, the command with its words, and the
words that nothing was made of. -/
structure ParsedWords (σ : Type) where
  state : σ
  command : Option (String × List String)
  extras : List String

namespace OptionGrammar

variable {ο σ : Type}

/-- Acts on options in order. -/
def applyAll (apply : σ → ο → Option String → Except UsageStop σ) (s : σ)
    (actions : List (ο × Option (List Char))) : Except UsageStop σ :=
  actions.foldlM (fun s (o, v) => apply s o (v.map String.ofList)) s

/-- Acts on classified words in order. -/
def readWords (g : OptionGrammar ο) (apply : σ → ο → Option String → Except UsageStop σ) :
    σ → List (String × WordClass ο) → Except UsageStop (ParsedWords σ)
  | s, [] => .ok ⟨s, none, []⟩
  | s, (word, .plain) :: rest =>
    if g.hasCommand then .ok ⟨s, some (word, rest.map (·.1)), []⟩
    else (g.readWords apply s rest).map fun p => { p with extras := word :: p.extras }
  | s, (word, .separator) :: rest =>
    if g.hasCommand && !rest.isEmpty then .ok ⟨s, some (word, rest.map (·.1)), []⟩
    else (g.readWords apply s rest).map fun p => { p with extras := word :: p.extras }
  | s, (word, .option use) :: rest =>
    match use.option with
    | none => (g.readWords apply s rest).map fun p => { p with extras := word :: p.extras }
    | some o =>
      match g.actionsOf o use with
      | .error text => .error (.message text)
      | .ok w =>
        match w.waiting, rest with
        | none, rest => do
          let s ← applyAll apply s w.actions
          let p ← g.readWords apply s rest
          .ok { p with extras := (w.extra.map String.ofList).toList ++ p.extras }
        | some o, (value, .plain) :: rest => do
          let s ← applyAll apply s (w.actions ++ [(o, some value.toList)])
          g.readWords apply s rest
        | some o, _ => .error (.message (g.optionMessage o "expected one argument"))

/-- Reads the words of a command line. -/
def read (g : OptionGrammar ο) (apply : σ → ο → Option String → Except UsageStop σ) (s : σ)
    (words : List String) : Except UsageStop (ParsedWords σ) :=
  match g.classifyAll words with
  | .error text => .error (.message text)
  | .ok classified => g.readWords apply s classified

end OptionGrammar

end OnlineFeatures
