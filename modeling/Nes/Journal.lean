import Nes.Notice

/-!
# Journals

Notices in the order in which they were given, those above the journal's level left out.

`admits` is `enabled` of famicore's `StderrLogger`.
-/

namespace Nes

/-- A journal that keeps notices up to `limit`, or none. -/
structure Journal where
  limit : Option Level
  notices : Array Notice := #[]

namespace Journal

@[inline] def admits (j : Journal) (level : Level) : Bool :=
  match j.limit with
  | none => false
  | some limit => level.rank ≤ limit.rank

def add (j : Journal) (n : Notice) : Journal :=
  if j.admits n.level then
    match j with
    | ⟨limit, notices⟩ => ⟨limit, notices.push n⟩
  else j

def addAll (j : Journal) (ns : List Notice) : Journal := ns.foldl add j

def take (j : Journal) : Array Notice × Journal := (j.notices, { j with notices := #[] })

end Journal

end Nes
