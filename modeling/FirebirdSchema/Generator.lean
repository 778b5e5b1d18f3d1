import FirebirdSchema.Script.Layout
import FirebirdSchema.Script.OfSchema
import FirebirdSchema.Server.Firebird

/-!
# Generators

A generator writes scripts for one dialect in one layout.  By default it writes
for the Firebird server that its configuration names.
-/

namespace FirebirdSchema

/-- The target of a generator and the layout of its scripts. -/
structure Config extends Layout where
  version : ServerVersion := .firebird3
  deriving DecidableEq

/-- A dialect together with the configuration under which it is used. -/
structure Generator where
  config : Config
  dialect : Dialect

namespace Generator

/-- The generator for the server that a configuration names. -/
def ofConfig (config : Config) : Generator :=
  { config, dialect := (Firebird.ofVersion config.version).dialect }

/-- The generator for Firebird 3, with tabulators and line feeds. -/
def standard : Generator :=
  ofConfig {}

/-- The script for a schema that is absent. -/
def noInput : String :=
  "-- No input."

/-- The text of the table block of an entity set. -/
def tableText (g : Generator) (e : EntitySet) : Except Fault String :=
  (e.tableBlock g.dialect).map g.config.tableBlock

/-- The text of the foreign key of a relationship set of a schema. -/
def foreignKeyText (g : Generator) (s : StoreSchema) (r : Relationship) :
    Except Fault String :=
  (s.foreignKey g.dialect r).map g.config.foreignKey

/-- The text of the script of a schema. -/
def schemaText (g : Generator) (s : StoreSchema) : Except Fault String :=
  (Script.ofSchema g.dialect s).map g.config.script

/-- The text of the script of a schema that may be absent. -/
def scriptText (g : Generator) : Option StoreSchema → Except Fault String
  | some s => g.schemaText s
  | none => .ok noInput

end Generator

end FirebirdSchema
