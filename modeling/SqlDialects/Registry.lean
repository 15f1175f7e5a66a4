import SqlDialects.Compiled

/-! One compiler for each engine, in the order in which the engines were first registered. -/

namespace SqlDialects

structure Registry where
  compilers : List Compiler

namespace Registry

def empty : Registry := ⟨[]⟩

def place (c : Compiler) : List Compiler → List Compiler
  | [] => [c]
  | d :: rest => if d.engine = c.engine then c :: rest else d :: place c rest

def register (r : Registry) (c : Compiler) : Registry := ⟨place c r.compilers⟩

def ofConfig (config : Config) : Registry :=
  (Engine.all.map (Compiler.ofConfig · config)).foldl register empty

def standard : Registry := ofConfig {}

def get? (r : Registry) (code : String) : Option Compiler :=
  r.compilers.find? (·.engine.code == code)

def codes (r : Registry) : List String := r.compilers.map (·.engine.code)

def accept (r : Registry) (code : String) (operators : List String) : Registry :=
  ⟨r.compilers.map fun c => if c.engine.code = code then c.accept operators else c⟩

def compileAll (r : Registry) (q : Query) : Except Fault (List (String × Compiled)) :=
  r.compilers.mapM fun c => (c.compile q).map (c.engine.code, ·)

end Registry

end SqlDialects
