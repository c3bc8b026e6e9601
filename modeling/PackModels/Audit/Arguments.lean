import PackModels.Text

/-!
Contract: the arguments of an audit.

Arguments are read from left to right, and the first fault, or the first
request for help or for the version, decides. Options that take a value take
it from the rest of their own argument or from the next one, which must not
begin with a dash unless it is a dash alone. No option may come twice, paths
must not be empty, and nothing but options is expected.
-/

namespace PackModels

structure AuditOptions where
  /-- The directory that holds one directory for each namespace. -/
  assets : Option String
  config : Option String
  space : Option String
  verbose : Bool
  unreferenced : Bool
  groups : Bool
deriving DecidableEq, Repr, Inhabited

inductive AuditStop where
  | help
  | version
  | usage (argument : String)
  | unreadable (what : String)
deriving DecidableEq, Repr

namespace AuditStop

def exitCode : AuditStop → Nat
  | help => 0
  | version => 0
  | usage _ => 2
  | unreadable _ => 1

end AuditStop

namespace AuditOptions

def unset : AuditOptions :=
  ⟨none, none, none, false, false, false⟩

inductive Valued where
  | assets
  | config
  | space
deriving DecidableEq, Repr

inductive Switch where
  | verbose
  | unreferenced
  | groups
  | help
  | version
deriving DecidableEq, Repr

def ofLongName? : String → Option (Valued ⊕ Switch)
  | "assets" => some (.inl .assets)
  | "config" => some (.inl .config)
  | "namespace" => some (.inl .space)
  | "verbose" => some (.inr .verbose)
  | "unreferenced" => some (.inr .unreferenced)
  | "groups" => some (.inr .groups)
  | "help" => some (.inr .help)
  | "version" => some (.inr .version)
  | _ => none

def ofLetter? : Char → Option (Valued ⊕ Switch)
  | 'a' => some (.inl .assets)
  | 'c' => some (.inl .config)
  | 'n' => some (.inl .space)
  | 'v' => some (.inr .verbose)
  | 'h' => some (.inr .help)
  | 'V' => some (.inr .version)
  | _ => none

variable (options : AuditOptions)

/-- Gives an option its value, unless it has one or may not have this one. -/
def setValue (option : Valued) (value : String) : Except AuditStop AuditOptions :=
  match option with
  | .assets =>
      if options.assets.isSome ∨ value = "" then
        .error (.usage "--assets")
      else
        .ok { options with assets := some value }
  | .config =>
      if options.config.isSome ∨ value = "" then
        .error (.usage "--config")
      else
        .ok { options with config := some value }
  | .space =>
      if options.space.isSome then
        .error (.usage "--namespace")
      else
        .ok { options with space := some value }

/-- Turns a switch on, unless it is on. -/
def turnOn : Switch → Except AuditStop AuditOptions
  | .verbose =>
      if options.verbose then
        .error (.usage "--verbose")
      else
        .ok { options with verbose := true }
  | .unreferenced =>
      if options.unreferenced then
        .error (.usage "--unreferenced")
      else
        .ok { options with unreferenced := true }
  | .groups =>
      if options.groups then
        .error (.usage "--groups")
      else
        .ok { options with groups := true }
  | .help => .error .help
  | .version => .error .version

/-- An option that still has to be given a value, if there is one. -/
abbrev Open : Type :=
  AuditOptions × Option Valued

def readLetters (options : AuditOptions) : List Char → Except AuditStop Open
  | [] => .ok (options, none)
  | letter :: rest =>
      match ofLetter? letter with
      | none => .error (.usage ("-" ++ String.singleton letter))
      | some (.inr switch) =>
          match options.turnOn switch with
          | .error stop => .error stop
          | .ok changed => readLetters changed rest
      | some (.inl option) =>
          match rest with
          | [] => .ok (options, some option)
          | '=' :: value =>
              (options.setValue option (String.ofList value)).map (fun changed => (changed, none))
          | value =>
              (options.setValue option (String.ofList value)).map (fun changed => (changed, none))

def readName (text : String) : Except AuditStop Open :=
  let (name, value) :=
    match Text.cut? '=' text with
    | some (name, value) => (name, some value)
    | none => (text, none)
  match ofLongName? name, value with
  | some (.inl option), none => .ok (options, some option)
  | some (.inl option), some value =>
      (options.setValue option value).map (fun changed => (changed, none))
  | some (.inr switch), none => (options.turnOn switch).map (fun changed => (changed, none))
  | some (.inr _), some _ => .error (.usage text)
  | none, _ => .error (.usage text)

def readArgument (argument : String) : Except AuditStop Open :=
  match argument.toList with
  | '-' :: '-' :: name => options.readName (String.ofList name)
  | '-' :: letter :: rest => options.readLetters (letter :: rest)
  | _ => .error (.usage argument)

/-- Whether an argument can be the value of the option before it. -/
def isValue (argument : String) : Bool :=
  match argument.toList with
  | '-' :: _ :: _ => false
  | _ => true

def readAll : Open → List String → Except AuditStop AuditOptions
  | (options, none), [] => .ok options
  | (_, some _), [] => .error (.usage "")
  | (options, some option), value :: rest =>
      if isValue value then
        match options.setValue option value with
        | .error stop => .error stop
        | .ok changed => readAll (changed, none) rest
      else
        .error (.usage value)
  | (options, none), "--" :: rest =>
      match rest with
      | [] => .ok options
      | argument :: _ => .error (.usage argument)
  | (options, none), argument :: rest =>
      match options.readArgument argument with
      | .error stop => .error stop
      | .ok next => readAll next rest

def parse (arguments : List String) : Except AuditStop AuditOptions :=
  readAll (unset, none) arguments

end AuditOptions

end PackModels
