import DependencyAtlas.Language
import DependencyAtlas.Parameter

namespace DependencyAtlas

open Text

namespace Parameter

/-- Reads `mut name: Type`, or a receiver such as `&mut self`, whose type is what stands around the
word. -/
def ofRust (t : Text) : Parameter :=
  let t := trim t
  let t := if "mut ".toList.isPrefixOf t then t.drop 4 else t
  if trim (delete "mut ".toList (t.dropWhile (· == '&'))) = "self".toList then
    { name := "self".toList, type := trim (delete "self".toList t) }
  else ofColon t

def ofC? (t : Text) : Option Parameter :=
  let (decl, value) := splitDefault t
  if decl = "void".toList ∨ decl = "...".toList then none
  else
    let (type, name) := splitTypeAndName decl
    some { name, type, defaultValue := value }

def ofJavaScript (t : Text) : Parameter :=
  let p := ofColon t
  if p.name.getLast? = some '?' then { p with name := p.name.dropLast } else p

/-- Reads `name Type`, cut at the first space. -/
def ofGo (t : Text) : Parameter :=
  match cutAt (· == ' ') t with
  | none => { name := trim t }
  | some (name, type) => { name := trim name, type := trim type }

def ofPython? (t : Text) : Option Parameter :=
  if trim t = ['*'] ∨ trim t = ['/'] then none else some (ofColon t)

def annotationLength (t : Text) : Option Nat :=
  let name := t.takeWhile isWord
  if name = [] then none
  else
    let rest := t.dropWhile isWord
    let arguments := match rest with
      | '(' :: u => ((cutAt (· == ')') u).map fun r => r.1.length + 2).getD 0
      | _ => 0
    some (name.length + arguments + indent (rest.drop arguments))

def withoutAnnotationsFrom : Nat → Text → Text
  | _, [] => []
  | n + 1, _ :: t => withoutAnnotationsFrom n t
  | 0, c :: t =>
    if c = '@' then
      match annotationLength t with
      | some n => withoutAnnotationsFrom n t
      | none => c :: withoutAnnotationsFrom 0 t
    else c :: withoutAnnotationsFrom 0 t

def ofJava (t : Text) : Parameter :=
  let (decl, value) := splitDefault (withoutAnnotationsFrom 0 t)
  let decl := if "final ".toList.isPrefixOf decl then decl.drop 6 else decl
  let (type, name) := splitTypeAndName decl
  { name, type, defaultValue := value }

/-- Reads `Type $name = default` without the sign of the variable, and without the words that make
the parameter a property. -/
def ofPhp (t : Text) : Parameter :=
  let (decl, value) := splitDefault t
  match cutAt (· == '$') decl with
  | none => { name := decl, defaultValue := value }
  | some (type, name) =>
    let type := trim (dropEndWhile (fun c => c == '&' || c == '.' || c == ' ') type)
    let kept := (words type).filter fun w =>
      w ∉ ["public", "private", "protected", "readonly"].map String.toList
    { name := trim name, type := join [' '] kept, defaultValue := value }

def keyword? (t : Text) : Option (Text × Text) :=
  match t with
  | [] => none
  | c :: r =>
    match r.dropWhile isWord with
    | ':' :: value =>
      if isNameStart c && !(trimLeft value).contains '\n' then
        some (c :: r.takeWhile isWord, trimLeft value) else none
    | _ => none

def ofRuby (t : Text) : Parameter :=
  match keyword? (trim t) with
  | some (name, value) => { name, defaultValue := if value = [] then none else some value }
  | none =>
    let (decl, value) := splitDefault (trim t)
    { name := decl, defaultValue := value }

def takeNextType : List Parameter → List Parameter
  | [] => []
  | p :: ps =>
    let rest := takeNextType ps
    if p.type = [] then { p with type := (rest.head?.map (·.type)).getD [] } :: rest else p :: rest

end Parameter

namespace Language

def parameter? : Language → Text → Option Parameter
  | .rust, t => some (Parameter.ofRust t)
  | .c, t => Parameter.ofC? t
  | .javascript, t => some (Parameter.ofJavaScript t)
  | .go, t => some (Parameter.ofGo t)
  | .python, t => Parameter.ofPython? t
  | .java, t => some (Parameter.ofJava t)
  | .php, t => some (Parameter.ofPhp t)
  | .ruby, t => some (Parameter.ofRuby t)

/-- Reads a parameter list without its parentheses. -/
def parameters (l : Language) (t : Text) : List Parameter :=
  let listed := (splitTopLevel (· == ',') t).filterMap l.parameter?
  if l = .go then Parameter.takeNextType listed else listed

def returnModifiers : Language → List String
  | .c => ["static", "inline", "extern", "virtual", "explicit", "constexpr", "friend"]
  | .java =>
    ["public", "private", "protected", "static", "final", "abstract", "synchronized", "native",
      "default"]
  | _ => []

def nonEmpty (t : Text) : Option Text :=
  if t = [] then none else some t

def returnType (l : Language) (captured : Option Text) : Option Text :=
  match captured with
  | none => none
  | some t =>
    if t = [] then none
    else if l.returnModifiers = [] then nonEmpty (trim t)
    else
      nonEmpty
        (trim (join [' '] ((words t).filter fun w => w ∉ l.returnModifiers.map String.toList)))

def qualifier (l : Language) (captured : Option Text) : Option Text :=
  match captured with
  | none => none
  | some t => if l = .go then (words t).getLast? else nonEmpty t

end Language

end DependencyAtlas
