import TransferPlan.TableName
import TransferPlan.Transformer.Config

/-!
# Column mappings

A mapping says for one column of one table what is to be done with its values.  A transformer is a
source with its settings; whether the two belong together is only checked when it is compiled.
-/

namespace TransferPlan

/-- A source with settings, which need not belong to it. -/
structure Transformer where
  source : Source := .unspecified
  config : Option Config := none
deriving DecidableEq, Repr

/-- What is to be done with a column. -/
structure Mapping where
  schema : String
  table : String
  column : String
  transformer : Option Transformer := none
deriving DecidableEq, Repr

/-- The key of the mapping's table. -/
def Mapping.tableKey (m : Mapping) : String := (TableName.mk m.schema m.table).key

/-- A transformer kept elsewhere under an id. -/
structure Definition where
  id : String
  name : String := ""
  description : String := ""
  dataType : Option String := none
  source : Source
  config : Option Config := none
deriving DecidableEq, Repr

/-- The transformer that a definition stands for. -/
def Definition.transformer (d : Definition) : Transformer := ⟨d.source, d.config⟩

/-- Whether a transformer changes the values of its column. -/
def Transformer.isActive : Option Transformer → Bool
  | some t => !t.source.isCopy
  | none => false

/-! ## Reading -/

open RecordReader Reading

/-- The source with its name. -/
def Source.ofJson : Json → Reading Source := oneOf Source.ofName?

/-- Settings or none. -/
def configField : RecordReader (Option Config) := optional "config" none (nullable Config.ofJson)

def Transformer.ofJson : Json → Reading Transformer :=
  (Transformer.mk <$> optional "source" .unspecified Source.ofJson <*> configField).ofJson

def Mapping.ofJson : Json → Reading Mapping :=
  (Mapping.mk <$> required "schema_name" string <*> required "table_name" string
    <*> required "column_name" string
    <*> optional "transformer" none (nullable Transformer.ofJson)).ofJson

def Definition.ofJson : Json → Reading Definition :=
  (Definition.mk <$> required "id" string <*> optional "name" "" string
    <*> optional "description" "" string <*> optional "data_type" none (nullable string)
    <*> required "source" Source.ofJson <*> configField).ofJson

end TransferPlan
