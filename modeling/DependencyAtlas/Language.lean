import DependencyAtlas.Text.Lower

namespace DependencyAtlas

inductive Language where
  | rust
  | c
  | javascript
  | go
  | python
  | java
  | php
  | ruby
  deriving DecidableEq, Repr

namespace Language

/-- All languages, in the order in which they are listed. -/
def all : List Language :=
  [.rust, .c, .javascript, .go, .python, .java, .php, .ruby]

/-- The word by which a language is chosen. -/
def word : Language → String
  | .rust => "rust"
  | .c => "c"
  | .javascript => "javascript"
  | .go => "go"
  | .python => "python"
  | .java => "java"
  | .php => "php"
  | .ruby => "ruby"

def displayName : Language → String
  | .rust => "Rust"
  | .c => "C/C++"
  | .javascript => "JavaScript"
  | .go => "Go"
  | .python => "Python"
  | .java => "Java"
  | .php => "PHP"
  | .ruby => "Ruby"

def constant : Language → String
  | .rust => "RUST"
  | .c => "C_FAMILY"
  | .javascript => "JAVASCRIPT_FAMILY"
  | .go => "GO"
  | .python => "PYTHON"
  | .java => "JAVA"
  | .php => "PHP"
  | .ruby => "RUBY"

def ofWord? (w : Text) : Option Language :=
  all.find? fun l => l.word.toList = w

def fallback : Language := .rust

def extensions : List (String × Language) :=
  [(".rs", .rust), (".c", .c), (".h", .c), (".cpp", .c), (".hpp", .c), (".cc", .c), (".cxx", .c),
    (".js", .javascript), (".jsx", .javascript), (".mjs", .javascript), (".ts", .javascript),
    (".tsx", .javascript), (".go", .go), (".py", .python), (".java", .java), (".php", .php),
    (".rb", .ruby)]

def baseName (path : Text) : Text :=
  (path.reverse.takeWhile (· ≠ '/')).reverse

def extensionOf (path : Text) : Text :=
  let name := baseName path
  if '.' ∈ name then Text.lower ('.' :: (name.reverse.takeWhile (· ≠ '.')).reverse) else []

def ofPath (default : Language) (path : Text) : Language :=
  ((extensions.find? fun e => e.1.toList = extensionOf path).map (·.2)).getD default

end Language

/-- The layers of dependency: imports of modules, bases of structures, calls of methods. -/
inductive Layer where
  | modules
  | structures
  | methods
  deriving DecidableEq, Repr

namespace Layer

def all : List Layer :=
  [.modules, .structures, .methods]

def number : Layer → Nat
  | .modules => 0
  | .structures => 1
  | .methods => 2

def name : Layer → String
  | .modules => "MODULE"
  | .structures => "STRUCTURE"
  | .methods => "METHOD"

def ofName? (n : Text) : Option Layer :=
  all.find? fun l => l.name.toList = n

end Layer

structure LayerChoice where
  modules : Bool := true
  structures : Bool := true
  methods : Bool := true
  deriving DecidableEq, Repr

end DependencyAtlas
