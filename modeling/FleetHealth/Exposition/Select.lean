import FleetHealth.Exposition.Sample

/-! # Picking the series that are asked for -/
namespace FleetHealth.Exposition

open Number

inductive SeriesType where
  | counter
  | gauge
  | histogram
  | summary
  | untyped
deriving DecidableEq, Repr

structure SeriesSpec where
  name : String
  type : SeriesType
  labels : List (String × String)
deriving DecidableEq, Repr

def SeriesSpec.sampleName (spec : SeriesSpec) : String :=
  match spec.type with
  | .counter | .gauge | .untyped => spec.name
  | .histogram | .summary => spec.name ++ "_sum"

def SeriesSpec.isMet (spec : SeriesSpec) (sample : Sample) : Bool :=
  sample.name = spec.sampleName && spec.labels.all fun l => sample.labels.get? l.1 = some l.2

structure Scraped where
  value : Binary64
  labels : Keyed String
deriving DecidableEq, Repr

def firstMatch (samples : List Sample) (spec : SeriesSpec) : Option Scraped :=
  (samples.find? spec.isMet).map fun s => ⟨s.value, s.labels⟩

/-- The first match of each request under its name; requests without one are absent, and
of two matched requests with one name the later stays. -/
def select (samples : List Sample) (specs : List SeriesSpec) : Keyed Scraped :=
  .ofEntries (specs.filterMap fun spec => (firstMatch samples spec).map fun s => (spec.name, s))

end FleetHealth.Exposition
