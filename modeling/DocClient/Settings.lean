/-
# Settings of a client

Where the server is, who asks, how entity types are laid out over databases, and how documents are written:

| member | default |
| --- | --- |
| `base_url` | `http://localhost:5984` |
| `username`, `password` | none |
| `database_naming` | a database for each type |
| `class_field` | `class__` |
| `null_fields` | kept |
| `request_timeout_secs`, `connect_timeout_secs` | 60 |

A client takes settings with a base URL that is more than slashes and a class field that is not blank.
-/

import DocClient.Identifier
import DocClient.Json.Record

namespace DocClient

/-- How entity types are laid out over databases. -/
inductive DatabaseNaming where
  /-- Each type has a database of its own, named after the type. -/
  | perType
  /-- All types share one database, but for those with a database of their own choice. -/
  | predefined (database : DatabaseName)
deriving DecidableEq, Repr

/-- What becomes of the null members of a stored document. -/
inductive NullPolicy where
  | keep
  | omit
deriving DecidableEq, Repr

/-- The settings of a client. -/
structure Settings where
  baseUrl : String := "http://localhost:5984"
  username : Option String := none
  password : Option String := none
  databaseNaming : DatabaseNaming := .perType
  classField : String := "class__"
  nullFields : NullPolicy := .keep
  requestTimeoutSecs : Nat := 60
  connectTimeoutSecs : Nat := 60
deriving DecidableEq, Repr

namespace DatabaseNaming

/-- Reads a layout: its mode is the tag. -/
def reader : Reader DatabaseNaming :=
  Reader.tagged "internally tagged enum DatabaseNaming" "mode"
    [("per_type", Reader.nothing .perType),
      ("predefined", Reader.record "struct variant DatabaseNaming::Predefined"
        (.predefined <$> Fields.field "database" DatabaseName.reader))]

/-- A layout as a value. -/
def toJson : DatabaseNaming → Json
  | .perType => Json.ofMembers [("mode", .str "per_type")]
  | .predefined db => Json.ofMembers [("mode", .str "predefined"), ("database", .str db.text)]

/-- The database that all types share. -/
def shared? : DatabaseNaming → Option DatabaseName
  | .perType => none
  | .predefined db => some db

end DatabaseNaming

namespace NullPolicy

/-- Reads a policy by its name. -/
def reader : Reader NullPolicy := Reader.choice [("keep", .keep), ("omit", .omit)]

/-- A policy as a value. -/
def toJson : NullPolicy → Json
  | .keep => .str "keep"
  | .omit => .str "omit"

end NullPolicy

namespace Settings

/-- The settings when nothing is said. -/
def standard : Settings := {}

/-- The standard settings for a server. -/
def forServer (baseUrl : String) : Settings := { baseUrl }

/-- The same settings with a user and a password. -/
def withCredentials (s : Settings) (username password : String) : Settings :=
  { s with username := some username, password := some password }

/-- The same settings with one database for all types. -/
def withSharedDatabase (s : Settings) (db : DatabaseName) : Settings :=
  { s with databaseNaming := .predefined db }

/-- Reads settings; every member may be left out. -/
def reader : Reader Settings :=
  Reader.record "struct KouchConfig" <|
    Settings.mk
      <$> Fields.defaulted "base_url" Reader.text standard.baseUrl
      <*> Fields.nullable "username" Reader.text
      <*> Fields.nullable "password" Reader.text
      <*> Fields.defaulted "database_naming" DatabaseNaming.reader standard.databaseNaming
      <*> Fields.defaulted "class_field" Reader.text standard.classField
      <*> Fields.defaulted "null_fields" NullPolicy.reader standard.nullFields
      <*> Fields.defaulted "request_timeout_secs" Reader.nat64 standard.requestTimeoutSecs
      <*> Fields.defaulted "connect_timeout_secs" Reader.nat64 standard.connectTimeoutSecs

/-- Settings as a value. -/
def toJson (s : Settings) : Json :=
  Json.ofMembers
    [("base_url", .str s.baseUrl),
      ("username", s.username.elim .null .str),
      ("password", s.password.elim .null .str),
      ("database_naming", s.databaseNaming.toJson),
      ("class_field", .str s.classField),
      ("null_fields", s.nullFields.toJson),
      ("request_timeout_secs", Json.ofNat s.requestTimeoutSecs),
      ("connect_timeout_secs", Json.ofNat s.connectTimeoutSecs)]

/-- The base URL without the slashes at its end. -/
def server (s : Settings) : String :=
  String.ofList (s.baseUrl.toList.reverse.dropWhile (· = '/')).reverse

/-- Why a client cannot take the settings, if it cannot. -/
def refusal? (s : Settings) : Option String :=
  if s.server = "" then some "base_url is empty"
  else if Text.isBlank s.classField then some "class_field is blank"
  else none

end Settings
end DocClient
