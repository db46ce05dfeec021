import ApiManual.Config.Checked
import ApiManual.Config.Model

/-!
# Checking a configuration

`Config.ofSettings` reads a configuration from its top-level settings. Problems come in the order of the
fields.
-/

namespace ApiManual

open Checker

def CallPolicy.check : Checker CallPolicy := record fun fields =>
  let d : CallPolicy := {}
  CallPolicy.mk <$> optional fields "methods" d.methods (listOf text)
    <*> optional fields "base_url" d.baseUrl text
    <*> optional fields "bindings" d.bindings (tableOf text)
    <*> optional fields "headers" d.headers (tableOf text)
    <*> optional fields "query" d.query (tableOf anything)
    <*> optional fields "body" d.body (tableOf anything)
    <*> optional fields "timeout" d.timeout decimal

def ApplyRules.check : Checker ApplyRules := record fun fields =>
  ApplyRules.mk <$> optional fields "headers" [] (tableOf text)
    <*> optional fields "response_calls" {} CallPolicy.check

def Server.check : Checker Server := record fun fields =>
  Server.mk <$> required fields "url" text <*> optional fields "description" "" text

def RouteEntry.check : Checker RouteEntry := record fun fields =>
  RouteEntry.mk <$> required fields "handler" text <*> required fields "methods" (listOf text)
    <*> required fields "uri" text

def RouteGroup.check : Checker RouteGroup := record fun fields =>
  RouteGroup.mk <$> optional fields "apply" {} ApplyRules.check
    <*> optional fields "routes" [] (listOf RouteEntry.check)

def Config.ofSettings (fields : Entries Setting) : Checked Config :=
  let d : Config := {}
  Config.mk <$> optional fields "title" d.title text
    <*> optional fields "version" d.version text
    <*> optional fields "description" d.description text
    <*> optional fields "logo" d.logo text
    <*> optional fields "color" d.color text
    <*> optional fields "servers" d.servers (listOf Server.check)
    <*> optional fields "language_tabs" d.languageTabs (tableOf text)
    <*> optional fields "docs_url" d.docsUrl text
    <*> optional fields "schema_groups" d.schemaGroups (listOf text)
    <*> optional fields "output" d.output text
    <*> optional fields "seed" d.seed (nullable integer)
    <*> optional fields "routes" d.routes (listOf RouteGroup.check)

end ApiManual
