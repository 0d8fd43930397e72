import CatalogSync.Program.Basic
import CatalogSync.Settings.Readers

/-!
# Settings in programs

Programs read settings with a default and write instants in full.
-/

namespace CatalogSync.Settings

open CatalogSync.Time

def get (key default : String) : Program String := do
  let a : Answer ← Program.call (.readSetting key)
  return a.text default

def getBool (key : String) (default : Bool) : Program Bool := do
  let a : Answer ← Program.call (.readSetting key)
  return a.bool default

def getInt (key : String) (default : Int) : Program Int := do
  let a : Answer ← Program.call (.readSetting key)
  return a.int default

def getTime (key : String) : Program (Option Instant) := do
  let a : Answer ← Program.call (.readSetting key)
  return a.time?

def setTime (key : String) (t : Instant) : Program (Stored Unit) := Program.call (.writeSetting key t.text)

end CatalogSync.Settings
