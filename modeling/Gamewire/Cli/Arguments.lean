import Gamewire.Cli.Grammar

/-! Reading command lines. Arguments are read from left to right: options of a command may stand
anywhere after its name, and the options that every command has may be given on each level, where
the deepest one counts. -/
namespace Gamewire.Cli
set_option autoImplicit false

/-- Variables of the environment. -/
abbrev Environment := List (String × String)

/-- Why reading ends without a command. -/
inductive Stop where
  | usage
  | help
  | version
deriving Repr, DecidableEq

/-- A command that was read. -/
structure Parsed where
  /-- Its name, after the names of the families that it is in. -/
  path : List String := []
  /-- Values by the names of options and operands, from the top level down. -/
  given : List (String × String) := []
  /-- Values from the environment. -/
  found : List (String × String) := []
deriving Repr, DecidableEq

/-- The value that was given for a name on the deepest level, or else the environment's. -/
def Parsed.value? (p : Parsed) (name : String) : Option String :=
  (p.given.reverse.lookup name).or (p.found.lookup name)

/-! ## One level -/

/-- What has been read of one level. -/
structure Level where
  given : List (String × String) := []
  /-- An option that waits for its value. -/
  pending : Option OptionSpec := none
  /-- Operands that may come. -/
  operands : List OperandSpec := []
  /-- Whether nothing but operands may come. -/
  operandsOnly : Bool := false

def Level.ofCommand (c : CommandSpec) : Level := { operands := c.operands }

def optionsOf (c : CommandSpec) : List OptionSpec := commonOptions ++ c.options

/-- Notes the value of an option, which may be given once. -/
def Level.give (o : OptionSpec) (value : String) (l : Level) : Except Stop Level :=
  if (l.given.lookup o.name).isSome ∨ ¬ o.kind.accepts value then .error .usage
  else .ok { l with given := l.given ++ [(o.name, value)], pending := none }

/-- Notes an operand. -/
def Level.operand (value : String) (l : Level) : Except Stop Level :=
  match l.operands with
  | [] => .error .usage
  | o :: operands =>
    if o.kind.accepts value then
      .ok { l with given := l.given ++ [(o.name, value)], operands := operands }
    else .error .usage

/-- Reads an option by its long name. -/
def Level.long (c : CommandSpec) (isTop : Bool) (text : List Char) (l : Level) :
    Except Stop Level :=
  let name := String.ofList (text.takeWhile (· != '='))
  let value? : Option String :=
    match text.dropWhile (· != '=') with
    | _ :: value => some (String.ofList value)
    | [] => none
  match (optionsOf c).find? (·.name == name), value? with
  | some o, some value => if o.kind = .switch then .error .usage else l.give o value
  | some o, none => if o.kind = .switch then l.give o "true" else .ok { l with pending := some o }
  | none, none =>
    if name = "help" then .error .help
    else if name = "version" ∧ isTop then .error .version
    else .error .usage
  | none, some _ => .error .usage

/-- Reads options by their short names, of which the last may have its value attached. -/
def Level.shorts (c : CommandSpec) (isTop : Bool) : List Char → Level → Except Stop Level
  | [], l => .ok l
  | name :: rest, l =>
    match (optionsOf c).find? (·.short == some name) with
    | some o =>
      if o.kind = .switch then
        match l.give o "true" with
        | .ok l => shorts c isTop rest l
        | .error e => .error e
      else
        match rest with
        | [] => .ok { l with pending := some o }
        | '=' :: value => l.give o (String.ofList value)
        | value => l.give o (String.ofList value)
    | none =>
      if name = 'h' then .error .help
      else if name = 'V' ∧ isTop then .error .version
      else .error .usage

/-- Reads an argument that is not the name of a command. -/
def Level.read (c : CommandSpec) (isTop : Bool) (arg : String) (l : Level) : Except Stop Level :=
  if l.operandsOnly then
    if l.pending.isSome then .error .usage else l.operand arg
  else if arg = "--" then .ok { l with operandsOnly := true }
  else
    match l.pending, arg.toList with
    | some _, '-' :: _ :: _ => .error .usage
    | some o, _ => l.give o arg
    | none, '-' :: '-' :: text => l.long c isTop text
    | none, '-' :: name :: rest => l.shorts c isTop (name :: rest)
    | none, _ => l.operand arg

/-! ## Whole command lines -/

/-- The values that the environment has for options that are not given on a level. -/
def fromEnvironment (env : Environment) (c : CommandSpec) (l : Level) :
    Except Stop (List (String × String)) :=
  let found := (optionsOf c).filterMap fun o =>
    if (l.given.lookup o.name).isSome then none
    else (o.environmentName.bind (env.lookup ·)).map fun value => (o, value)
  if found.all fun x => x.1.kind.accepts x.2 then .ok (found.map fun x => (x.1.name, x.2))
  else .error .usage

/-- The end of a level without a command below it. -/
def Level.finish (env : Environment) (c : CommandSpec) (l : Level) : Except Stop Parsed :=
  if l.pending.isSome ∨ ¬ c.members.isEmpty ∨ l.operands.any (·.required) then .error .usage
  else (fromEnvironment env c l).map fun found => { given := l.given, found := found }

/-- Reads the arguments of a command. -/
def parseLevel (env : Environment) (c : CommandSpec) (isTop : Bool) (l : Level) :
    List String → Except Stop Parsed
  | [] => l.finish env c
  | arg :: rest =>
    let isCommand := !l.operandsOnly && l.pending.isNone && !c.members.isEmpty
    match if isCommand then c.member? arg else none with
    | some member =>
      match parseLevel env member false (.ofCommand member) rest, fromEnvironment env c l with
      | .ok p, .ok found =>
        .ok {
          path := member.mainName :: p.path
          given := l.given ++ p.given
          found := found ++ p.found }
      | .error e, _ => .error e
      | _, .error e => .error e
    | none =>
      if isCommand ∧ arg = "help" then .error (if c.leadsTo rest then .help else .usage)
      else
        match l.read c isTop arg with
        | .ok l => parseLevel env c isTop l rest
        | .error e => .error e

def parse (env : Environment) (args : List String) : Except Stop Parsed :=
  parseLevel env grammar true (.ofCommand grammar) args

end Gamewire.Cli
