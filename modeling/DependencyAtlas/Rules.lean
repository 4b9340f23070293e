import DependencyAtlas.Rules.C
import DependencyAtlas.Rules.Go
import DependencyAtlas.Rules.Java
import DependencyAtlas.Rules.JavaScript
import DependencyAtlas.Rules.Php
import DependencyAtlas.Rules.Python
import DependencyAtlas.Rules.Ruby
import DependencyAtlas.Rules.Rust

namespace DependencyAtlas

/-- The rules that are used unless others are given. -/
def builtinRules : RuleTables :=
  [(.rust, Rules.Rust.table), (.c, Rules.C.table), (.javascript, Rules.JavaScript.table),
    (.go, Rules.Go.table), (.python, Rules.Python.table), (.java, Rules.Java.table),
    (.php, Rules.Php.table), (.ruby, Rules.Ruby.table)]

end DependencyAtlas
