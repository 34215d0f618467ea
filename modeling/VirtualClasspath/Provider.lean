import VirtualClasspath.ClassFile.Reader
import VirtualClasspath.Journal

/-!
# Providers of classes

A `Provider` answers requests for classes in place of a class path: `answer` is `get_class`, and
`listing` is `class_path_listing` (section 6 of the specification). Its answers may depend on the
requests before, may hold several classes for one name, and may hold classes that nobody asked for;
only finitely many names ever occur in them (`supply`), which bounds every search through a
provider.

`Provider.ofMap` serves the classes of a map, with the operations of classes in memory.

Out of scope:

* A provider in whose answers infinitely many names occur, one after the other: a search that asks
  it for the class around each class that it was given need not end.
* A listing that changes. A compilation reads the listing once, so a single list stands for it.
* Answers that depend on anything but the requests before, such as the time.
-/

namespace VirtualClasspath

/-- The bytes of a class, under the name that they are served for. -/
structure Blob where
  name : TypeName
  bytes : Bytes
  deriving DecidableEq

/-- Serves classes by name. -/
structure Provider where
  /-- The answer to a request, after the requests before. -/
  answer : (past : Array (List TypeName)) → (names : List TypeName) → List Blob
  /-- The type names that the provider lists, other texts among them. -/
  listing : List String
  /-- The names that occur in answers. -/
  supply : List TypeName
  name_mem_supply : ∀ past names, ∀ b ∈ answer past names, b.name ∈ supply

namespace Provider

/-- Asks for classes. -/
def ask (p : Provider) (names : List TypeName) : Session (List Blob) := fun j =>
  (p.answer j.requests names, { j with requests := j.requests.push names })

/-- Asks for one class and drops what comes under another name. -/
def fetch (p : Provider) (name : TypeName) : Session (List Blob) := fun j =>
  ((p.answer j.requests [name]).filter fun b => b.name = name,
    { j with requests := j.requests.push [name] })

theorem mem_supply_of_fetch {p : Provider} {name : TypeName} {j : Journal} {b : Blob}
    (h : b ∈ (p.fetch name j).1) : name ∈ p.supply := by
  obtain ⟨hb, hn⟩ := List.mem_filter.mp h
  exact of_decide_eq_true hn ▸ p.name_mem_supply _ _ _ hb

end Provider

/-! ## Classes in memory -/

/-- Classes by name, and texts that are listed without a class behind them. -/
structure ClassMap where
  classes : SortedMap TypeName Bytes := ∅
  extraListing : List String := []
  deriving DecidableEq

namespace ClassMap

/-- With the bytes of one more class; they replace those of a class with its name. -/
def insert (m : ClassMap) (b : Blob) : ClassMap :=
  { m with classes := m.classes.insert b.name b.bytes }

/-- With one more listed text. -/
def addListing (m : ClassMap) (s : String) : ClassMap :=
  { m with extraListing := m.extraListing ++ [s] }

/-- The classes in order; of two with one name the later counts. -/
def ofBlobs (bs : List Blob) : ClassMap := bs.foldl insert {}

/-- The classes with the given names, in their order. -/
def get (m : ClassMap) (names : List TypeName) : List Blob :=
  names.filterMap fun n => (m.classes.find? n).map fun bytes => ⟨n, bytes⟩

/-- The names of the classes, then the other listed texts. -/
def listing (m : ClassMap) : List String :=
  m.classes.keys.map (·.text) ++ m.extraListing

end ClassMap

/-- Serves the classes of a map. -/
def Provider.ofMap (m : ClassMap) : Provider where
  answer _ names := m.get names
  listing := m.listing
  supply := m.classes.keys
  name_mem_supply _ names b hb := by
    obtain ⟨n, -, h⟩ := List.mem_filterMap.mp hb
    obtain ⟨bytes, hf, rfl⟩ := Option.map_eq_some_iff.mp h
    exact SortedMap.mem_keys_iff.mpr (by rw [hf]; rfl)

/-- Serves a list of classes, each to whoever asks for the name that it goes under: to a request
for several names, the classes of the first name come first. -/
def Provider.ofList (served : List (TypeName × Blob)) (listing : List String) : Provider where
  answer _ names := names.flatMap fun n => (served.filter fun e => e.1 = n).map Prod.snd
  listing
  supply := served.map fun e => e.2.name
  name_mem_supply _ names b hb := by
    obtain ⟨n, -, h⟩ := List.mem_flatMap.mp hb
    obtain ⟨e, he, rfl⟩ := List.mem_map.mp h
    exact List.mem_map_of_mem (List.mem_filter.mp he).1

end VirtualClasspath
