import TreeManifest.Order.Cursor

/-!
# A total order of entries

The canonical order decides by path alone. The total order refines it by the remaining fields, one
after the other, so that lists of arbitrary entries can be put into one definite order.

## Main definitions

- `AttributeMap.compare`: the order of maps by their bindings in ascending order of names.
- `Order.compareTotal`: the canonical order, then the other fields.
-/

namespace TreeManifest

def AttributeMap.compareBinding (a b : String × Bytes) : Ordering :=
  (Ord.compare a.1 b.1).then (Ord.compare a.2 b.2)

/-- The lexicographic order of the bindings of two maps. -/
def AttributeMap.compare (a b : AttributeMap) : Ordering :=
  List.compareLex compareBinding a.toList b.toList

instance : Ord AttributeMap := ⟨AttributeMap.compare⟩

def ObjectId.compare (a b : ObjectId) : Ordering :=
  (Ord.compare a.device b.device).then (Ord.compare a.inode b.inode)

instance : Ord ObjectId := ⟨ObjectId.compare⟩

/-- The place of a role: no group, canonical, further name. -/
def HardlinkRole.rank : HardlinkRole → Nat
  | .none => 0
  | .canonical => 1
  | .linkTo => 2

namespace Order

/-- The canonical order of two entries, refined by mode, size, time, owner, group, flag word,
payload, link, attributes, role and identity. What is absent comes before what is present. -/
def compareTotal (a b : Entry) : Ordering :=
  (compareEntries a b)
    |>.then (compare a.mode b.mode)
    |>.then (compare a.size b.size)
    |>.then (compare a.modTime b.modTime)
    |>.then (compare a.uid b.uid)
    |>.then (compare a.gid b.gid)
    |>.then (compare a.flags b.flags)
    |>.then (compare a.startChunk b.startChunk)
    |>.then (compare a.startOffset b.startOffset)
    |>.then (compare a.link b.link)
    |>.then (compare a.attributes b.attributes)
    |>.then (compare a.role.rank b.role.rank)
    |>.then (compare a.identity b.identity)

end Order

end TreeManifest
