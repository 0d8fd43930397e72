import CatalogSync.Time.Instant

/-!
# Time zones

The clocks of a zone are ahead of UTC by some seconds, which may change in the course of time. `Zone.timeOfDay` is what
they show at an instant.
-/

namespace CatalogSync.Time

/-- A time zone. -/
structure Zone where
  /-- The seconds by which its clocks are ahead of UTC, less than a day. -/
  ahead : Instant → Int
  ahead_lt : ∀ t, (ahead t).natAbs < secondsPerDay

namespace Zone

/-- The zone whose clocks show UTC. -/
def utc : Zone := ⟨fun _ => 0, fun _ => by decide⟩

instance : Inhabited Zone := ⟨utc⟩

/-- The time of day on the clocks of a zone. A leap second stays one. -/
def timeOfDay (zone : Zone) (t : Instant) : OfDay :=
  let time := t.time
  let total := (time.second : Int) + zone.ahead t
  ⟨(total % secondsPerDay).toNat, time.nano, Instant.secondOfDay_lt total, time.nano_lt⟩

@[simp] theorem nano_timeOfDay (zone : Zone) (t : Instant) : (zone.timeOfDay t).nano = t.time.nano := rfl

end Zone

end CatalogSync.Time
