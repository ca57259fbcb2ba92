import Ldap.ControlObject

/-! The arguments of the program. Options stand before the command, among its own arguments, or on
both sides; each side takes an option once, and a settings file named behind the command wins. -/
namespace Ldap.CommandLine

structure Options where
  settings : Option String := none
  strict : Bool := false
  strictTopLevel : Bool := false
  debug : Bool := false
  metrics : Bool := false
  deriving Repr, DecidableEq

inductive Command where
  | json (file : String)
  | ber (hex : String)
  deriving Repr, DecidableEq

structure Arguments where
  options : Options
  command : Command
  deriving Repr, DecidableEq

namespace Arguments

def readsStandard (a : Arguments) : Bool := a.command = .json "-"

def files (a : Arguments) : List String :=
  let input := match a.command with
    | .json file => if file = "-" then [] else [file]
    | .ber _ => []
  a.options.settings.toList ++ input

end Arguments

namespace Options

def strictness (o : Options) : Strictness := ⟨o.strict, o.strictTopLevel⟩

def join (outer inner : Options) : Options where
  settings := inner.settings <|> outer.settings
  strict := outer.strict || inner.strict
  strictTopLevel := outer.strictTopLevel || inner.strictTopLevel
  debug := outer.debug || inner.debug
  metrics := outer.metrics || inner.metrics

def setSettings (path : List Char) (o : Options) : Option Options :=
  if path = [] ∨ o.settings.isSome then none else some { o with settings := some (.ofList path) }

def setFlag (name : String) (o : Options) : Option Options :=
  match name with
  | "strict" => if o.strict then none else some { o with strict := true }
  | "strict-top-level" => if o.strictTopLevel then none else some { o with strictTopLevel := true }
  | "debug" => if o.debug then none else some { o with debug := true }
  | "metrics" => if o.metrics then none else some { o with metrics := true }
  | _ => none

end Options

inductive Stage where
  | noCommand
  | json (file : Option String)
  | ber (hex : Option String)

inductive Valued where
  | settings
  | hex

structure Progress where
  outer : Options := {}
  inner : Options := {}
  stage : Stage := .noCommand
  awaits : Option Valued := none
  ended : Bool := false

namespace Progress

def withOptions (f : Options → Option Options) (p : Progress) : Option Progress :=
  match p.stage with
  | .noCommand => (f p.outer).map fun outer => { p with outer }
  | _ => (f p.inner).map fun inner => { p with inner }

def supply (option : Valued) (value : List Char) (p : Progress) : Option Progress :=
  match option, p.stage with
  | .settings, _ => p.withOptions (·.setSettings value)
  | .hex, .ber none => some { p with stage := .ber (some (.ofList value)) }
  | .hex, _ => none

def long (name : String) (value : Option (List Char)) (p : Progress) : Option Progress :=
  let valued (option : Valued) : Option Progress :=
    match value with
    | some value => p.supply option value
    | none => some { p with awaits := some option }
  match name, value with
  | "config", _ => valued .settings
  | "hex", _ =>
    match p.stage with
    | .ber _ => valued .hex
    | _ => none
  | name, none => p.withOptions (·.setFlag name)
  | _, some _ => none

/-- Options by their letters; what follows the letter of an option with a value is that value. -/
def short : List Char → Progress → Option Progress
  | [], p => some p
  | 'd' :: rest, p => do short rest (← p.withOptions (·.setFlag "debug"))
  | ['c'], p => some { p with awaits := some .settings }
  | 'c' :: '=' :: value, p => p.supply .settings value
  | 'c' :: value, p => p.supply .settings value
  | _, _ => none

def operand (s : List Char) (p : Progress) : Option Progress :=
  match p.stage with
  | .json none => if s = [] then none else some { p with stage := .json (some (.ofList s)) }
  | _ => none

def word (s : List Char) (p : Progress) : Option Progress :=
  match p.stage with
  | .noCommand =>
    if s = "json".toList then some { p with stage := .json none }
    else if s = "ber".toList then some { p with stage := .ber none }
    else none
  | _ => p.operand s

def isOption : List Char → Bool
  | '-' :: _ :: _ => true
  | _ => false

def next (p : Progress) (argument : String) : Option Progress :=
  let s := argument.toList
  match p.awaits with
  | some option => if isOption s then none else { p with awaits := none }.supply option s
  | none =>
    if p.ended then p.operand s
    else
      match s with
      | ['-', '-'] => some { p with ended := true }
      | '-' :: '-' :: option =>
        let name := option.takeWhile (· != '=')
        p.long (.ofList name) (option.drop name.length).tail?
      | '-' :: c :: letters => p.short (c :: letters)
      | s => p.word s

def finish (p : Progress) : Option Arguments :=
  let options := p.outer.join p.inner
  match p.awaits, p.stage with
  | none, .json (some file) => some ⟨options, .json file⟩
  | none, .ber (some hex) => some ⟨options, .ber hex⟩
  | _, _ => none

end Progress

def Arguments.ofList? (arguments : List String) : Option Arguments := do
  (← arguments.foldlM Progress.next {}).finish

end Ldap.CommandLine
