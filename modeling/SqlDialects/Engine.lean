/-! The engines that statements are written for. -/

namespace SqlDialects

inductive Engine where
  | generic
  | mySql
  | postgres
  | sqlServer
  | sqlite
  | firebird
  deriving DecidableEq

namespace Engine

def all : List Engine := [generic, mySql, postgres, sqlServer, sqlite, firebird]

def code : Engine → String
  | generic => "generic"
  | mySql => "mysql"
  | postgres => "postgres"
  | sqlServer => "sqlsrv"
  | sqlite => "sqlite"
  | firebird => "firebird"

def name : Engine → String
  | generic => "Generic"
  | mySql => "MySql"
  | postgres => "Postgres"
  | sqlServer => "SqlServer"
  | sqlite => "Sqlite"
  | firebird => "Firebird"

def ofCode? (code : String) : Option Engine := all.find? (·.code == code)

def ofName? (name : String) : Option Engine := all.find? (·.name == name)

@[simp] theorem ofCode?_code (e : Engine) : ofCode? e.code = some e := by cases e <;> rfl

@[simp] theorem ofName?_name (e : Engine) : ofName? e.name = some e := by cases e <;> rfl

end Engine

end SqlDialects
