import CatalogSync.Program.Basic
import CatalogSync.Settings.Keys

/-!
# Seeding settings

A store of settings starts with defaults and with what the configuration says. Seeding writes each
of these keys unless it has a value already, so nothing an operator has set is lost.
-/

namespace CatalogSync.Settings

open CatalogSync.Text

/-- The values to seed, where `overrides` come before the defaults. -/
def merged (overrides : List (String × String)) : Dict String := Dict.ofList (defaults ++ overrides)

/-- Writes the pairs whose keys have no value, in the given order, up to the first call that fails.
It tells how many it wrote, `written` of them before. -/
def seedPairs (written : Nat) : List (String × String) → Program (Stored Nat)
  | [] => return .ok written
  | (key, value) :: rest => do
    match ← Program.call (.readSetting key) with
    | .error e => return .error (e.within ("Failed to read setting " ++ key))
    | .ok (some _) => seedPairs written rest
    | .ok none =>
      match ← Program.call (.writeSetting key value) with
      | .error e => return .error (e.within ("Failed to seed setting " ++ key))
      | .ok () => seedPairs (written + 1) rest

/-- Writes the defaults and the overrides whose keys have no value, and tells how many these were. -/
def seed (overrides : List (String × String)) : Program (Stored Nat) := seedPairs 0 (merged overrides)

end CatalogSync.Settings
