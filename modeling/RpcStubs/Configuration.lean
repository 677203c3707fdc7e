namespace RpcStubs

/-!
# Configuration

What a run is asked to do: the choices a user makes, the fallbacks for choices left open,
and the resolved configuration.
-/

/-- The choices of a user; an open choice takes its fallback. -/
structure Choices where
  package : Option String := none
  output : Option String := none
  protoPath : Option String := none
  protoImport : Option String := none
  protoPackage : Option String := none
  vendor : Option String := none
  full : Bool := false
deriving Repr, DecidableEq

/-- The choices that a settings file makes. -/
structure Settings where
  package : Option String := none
  output : Option String := none
  protoPath : Option String := none
  protoImport : Option String := none
  protoPackage : Option String := none
  vendor : Option String := none
  full : Option Bool := none
deriving Repr, DecidableEq

/-- The choices of a user, those left open taken from a settings file. -/
def Choices.orElse (choices : Choices) (settings : Settings) : Choices :=
  { package := choices.package <|> settings.package
    output := choices.output <|> settings.output
    protoPath := choices.protoPath <|> settings.protoPath
    protoImport := choices.protoImport <|> settings.protoImport
    protoPackage := choices.protoPackage <|> settings.protoPackage
    vendor := choices.vendor <|> settings.vendor
    full := choices.full || settings.full.getD false }

/-- What open choices come to. -/
structure Fallbacks where
  package : String := "api"
  output : String := "."
  protoPath : String := "proto/api/v1/api.proto"
  vendor : String := "pkg"
  manifest : String := "go.mod"
  reservedPackage : String := "main"
deriving Repr, DecidableEq

/--
The configuration of a run.

`outputRelative` leads from the module root to the output directory and is empty when they
are the same; `protoPath` leads from the output directory to the message file.
-/
structure Configuration where
  package : String
  output : String
  moduleRoot : String
  modulePath : String
  outputRelative : String
  protoPath : String
  protoImport : String
  packageImport : String
  protoPackage : String
  full : Bool
deriving Repr, DecidableEq

end RpcStubs
