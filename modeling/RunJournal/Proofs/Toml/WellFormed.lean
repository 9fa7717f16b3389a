import RunJournal.Proofs.Named
import RunJournal.Toml.Reader

/-!
# What a document may denote

A TOML value may hold any integer and a table may list a key more than once, but no document denotes
such values: its integers fit 64 bits with a sign, and in each of its tables every key stands for one
value (`wellFormed_read`). An integer is refused where it is read. Keys are kept apart while tables
are built, since a node is always put in the place of the one that has its name.

The proof follows the text from the inside out. `Members.WellFormed` is kept by whatever is done to
a table (`Members.WellFormed.put` and its like), then by a value and its items (`readValue`), and in
the end by every line of a document.
-/

namespace RunJournal.Toml

/-- The integers that fit 64 bits with a sign. -/
def FitsInteger (i : Int) : Prop := -9223372036854775808 ≤ i ∧ i ≤ 9223372036854775807

/-- Integers fit 64 bits, and no table has a key twice. -/
inductive WellFormed : Toml → Prop where
  | text (s : String) : WellFormed (.text s)
  | integer {i : Int} (h : FitsInteger i) : WellFormed (.integer i)
  | decimal (spelling : String) : WellFormed (.decimal spelling)
  | bool (b : Bool) : WellFormed (.bool b)
  | moment (spelling : String) : WellFormed (.moment spelling)
  | array {items : List Toml} (h : ∀ v ∈ items, WellFormed v) : WellFormed (.array items)
  | table {members : List (String × Toml)} (hnodup : (members.map Prod.fst).Nodup)
      (h : ∀ m ∈ members, WellFormed m.2) : WellFormed (.table members)

/-- A node whose tables have no key twice, and whose values are well formed. -/
inductive Node.WellFormed : Node → Prop where
  | value {v : Toml} (h : v.WellFormed) : WellFormed (.value v)
  | table {origin : Origin} {members : Members} (hnodup : (members.map Prod.fst).Nodup)
      (h : ∀ m ∈ members, WellFormed m.2) : WellFormed (.table origin members)
  | tables {last : Members} {earlier : List Members}
      (hnodup : ∀ members ∈ last :: earlier, (members.map Prod.fst).Nodup)
      (h : ∀ members ∈ last :: earlier, ∀ m ∈ members, WellFormed m.2) :
      WellFormed (.tables last earlier)

/-- No key twice, and nodes that are well formed. -/
structure Members.WellFormed (members : Members) : Prop where
  nodup : (members.map Prod.fst).Nodup
  nodes : ∀ m ∈ members, m.2.WellFormed

/-! ## Tables under construction -/

namespace Members

variable {members inner last : Members} {earlier : List Members} {name : String} {node : Node}
  {origin : Origin}

theorem wellFormed_nil : WellFormed [] := ⟨List.nodup_nil, fun _ hm => absurd hm List.not_mem_nil⟩

/-- A table node is well formed when its members are. -/
theorem wellFormed_table_iff :
    (Node.table origin members).WellFormed ↔ WellFormed members := by
  constructor
  · intro h
    cases h with
    | table hnodup h => exact ⟨hnodup, h⟩
  · rintro ⟨hnodup, h⟩
    exact .table hnodup h

/-- An array of tables is well formed when each of its tables is. -/
theorem wellFormed_tables_iff :
    (Node.tables last earlier).WellFormed ↔ ∀ members ∈ last :: earlier, WellFormed members := by
  constructor
  · intro h members hmembers
    cases h with
    | tables hnodup h => exact ⟨hnodup members hmembers, h members hmembers⟩
  · intro h
    exact .tables (fun members hm => (h members hm).nodup) fun members hm => (h members hm).nodes

/-- A node takes the place of the one with its name, or comes last. -/
theorem map_fst_set (members : Members) (name : String) (node : Node) :
    (members.set name node).map Prod.fst =
      if name ∈ members.map Prod.fst then members.map Prod.fst
      else members.map Prod.fst ++ [name] := by
  induction members with
  | nil => rfl
  | cons m rest ih =>
    obtain ⟨n, old⟩ := m
    rw [set]
    -- a name that is there keeps its place
    by_cases hn : n = name
    · subst hn
      have hname : n ∈ List.map Prod.fst ((n, old) :: rest) := List.mem_cons_self
      rw [if_pos rfl, if_pos hname]
      rfl
    · rw [if_neg hn, List.map_cons, ih]
      have hiff : name ∈ List.map Prod.fst ((n, old) :: rest) ↔ name ∈ rest.map Prod.fst := by
        rw [List.map_cons, List.mem_cons, or_iff_right (Ne.symm hn)]
      by_cases hname : name ∈ rest.map Prod.fst
      · rw [if_pos hname, if_pos (hiff.mpr hname)]
        rfl
      · rw [if_neg hname, if_neg (hiff.not.mpr hname)]
        rfl

/-- What is set stands there, and everything else stood there before. -/
theorem mem_set {m : String × Node} (h : m ∈ members.set name node) :
    m.2 = node ∨ m ∈ members := by
  -- the name is looked for from the first member on, and comes last when it is new
  induction members with
  | nil =>
    rw [List.mem_singleton.mp h]
    exact Or.inl rfl
  | cons head rest ih =>
    obtain ⟨n, old⟩ := head
    rw [set] at h
    split at h
    · rcases List.mem_cons.mp h with rfl | h
      · exact Or.inl rfl
      · exact Or.inr (List.mem_cons_of_mem _ h)
    · rcases List.mem_cons.mp h with rfl | h
      · exact Or.inr List.mem_cons_self
      · exact (ih h).imp_right (List.mem_cons_of_mem _)

namespace WellFormed

/-- Setting a name adds no second member of that name. -/
theorem set (h : WellFormed members) (name : String) (hnode : node.WellFormed) :
    WellFormed (members.set name node) := by
  constructor
  · rw [map_fst_set]
    split
    · exact h.nodup
    · rename_i hname
      rw [List.nodup_append]
      refine ⟨h.nodup, List.nodup_singleton _, ?_⟩
      rintro key hkey other hother rfl
      exact hname (List.mem_singleton.mp hother ▸ hkey)
  · intro m hm
    rcases mem_set hm with hm | hm
    · rw [hm]
      exact hnode
    · exact h.nodes m hm

/-- The node behind a name of a well-formed table is well formed. -/
theorem lookup (h : WellFormed members) (hlookup : members.lookup name = some node) :
    node.WellFormed :=
  h.nodes _ (mem_of_lookup hlookup)

/-- Setting a table that was made of a well-formed one by a change. -/
theorem setTable (h : WellFormed members) {changed : Option Members} {members' : Members}
    (hchanged : ∀ inner, changed = some inner → WellFormed inner)
    (hset : changed.map (fun inner => members.set name (.table origin inner)) = some members') :
    WellFormed members' := by
  obtain ⟨inner, hinner, rfl⟩ := Option.map_eq_some_iff.mp hset
  exact h.set name (wellFormed_table_iff.mpr (hchanged inner hinner))

/-- Setting the last table of an array that was made of a well-formed one by a change. -/
theorem setLast (h : WellFormed members) {changed : Option Members} {members' : Members}
    (hearlier : ∀ members ∈ earlier, WellFormed members)
    (hchanged : ∀ last, changed = some last → WellFormed last)
    (hset : changed.map (fun last => members.set name (.tables last earlier)) = some members') :
    WellFormed members' := by
  obtain ⟨last, hlast, rfl⟩ := Option.map_eq_some_iff.mp hset
  refine h.set name (wellFormed_tables_iff.mpr fun members hmembers => ?_)
  rcases List.mem_cons.mp hmembers with rfl | hmembers
  · exact hchanged _ hlast
  · exact hearlier _ hmembers

/-- A value that is put somewhere below leaves the table well formed. -/
theorem putFrom {key : String} {v : Toml} (hv : v.WellFormed) {path : List String}
    {mayTake : Bool} {members members' : Members} (h : WellFormed members)
    (hput : Members.putFrom key v path mayTake members = some members') : WellFormed members' := by
  -- over the path, whose last step sets the key; each earlier step goes into what it finds
  induction path generalizing mayTake members members' with
  | nil =>
    rw [Members.putFrom] at hput
    split at hput
    · cases hput
      exact h.set key (.value hv)
    · cases hput
  | cons name path ih =>
    rw [Members.putFrom] at hput
    split at hput
    · exact h.setTable (fun inner hinner => ih wellFormed_nil hinner) hput
    · cases hput
    · cases hput
    · rename_i hfound
      exact h.setTable (fun _ hinner => ih (wellFormed_table_iff.mp (h.lookup hfound)) hinner) hput
    · rename_i hfound
      have hall := wellFormed_tables_iff.mp (h.lookup hfound)
      exact h.setLast (fun members hm => hall members (List.mem_cons_of_mem _ hm))
        (fun _ hlast => ih (hall _ List.mem_cons_self) hlast) hput

theorem put {key : String} {v : Toml} (hv : v.WellFormed) {path : List String}
    {members' : Members} (h : WellFormed members)
    (hput : Members.put path key v members = some members') : WellFormed members' :=
  h.putFrom hv hput

/-- What a change keeps of one table, it keeps of the tables around it. -/
theorem change {f : Members → Option Members}
    (hf : ∀ {inner inner'}, WellFormed inner → f inner = some inner' → WellFormed inner')
    {path : List String} {members members' : Members} (h : WellFormed members)
    (hchange : Members.change f path members = some members') : WellFormed members' := by
  induction path generalizing members members' with
  | nil => exact hf h hchange
  | cons name path ih =>
    rw [Members.change] at hchange
    split at hchange
    · exact h.setTable (fun inner hinner => ih wellFormed_nil hinner) hchange
    · cases hchange
    · rename_i hfound
      exact h.setTable (fun _ hinner => ih (wellFormed_table_iff.mp (h.lookup hfound)) hinner)
        hchange
    · rename_i hfound
      have hall := wellFormed_tables_iff.mp (h.lookup hfound)
      exact h.setLast (fun members hm => hall members (List.mem_cons_of_mem _ hm))
        (fun _ hlast => ih (hall _ List.mem_cons_self) hlast) hchange

/-- A header that opens a table leaves the table around it well formed. -/
theorem startTable {members' : Members} (h : WellFormed members)
    (hstart : Members.startTable name members = some members') : WellFormed members' := by
  rw [Members.startTable] at hstart
  split at hstart
  · cases hstart
    exact h.set name (wellFormed_table_iff.mpr wellFormed_nil)
  · rename_i hfound
    cases hstart
    exact h.set name (wellFormed_table_iff.mpr (wellFormed_table_iff.mp (h.lookup hfound)))
  · cases hstart

/-- A header that opens an element of an array leaves the table around it well formed. -/
theorem startElement {members' : Members} (h : WellFormed members)
    (hstart : Members.startElement name members = some members') : WellFormed members' := by
  rw [Members.startElement] at hstart
  split at hstart
  · cases hstart
    refine h.set name (wellFormed_tables_iff.mpr fun members hm => ?_)
    rw [List.mem_singleton.mp hm]
    exact wellFormed_nil
  · rename_i hfound
    cases hstart
    refine h.set name (wellFormed_tables_iff.mpr fun members hm => ?_)
    rcases List.mem_cons.mp hm with rfl | hm
    · exact wellFormed_nil
    · exact wellFormed_tables_iff.mp (h.lookup hfound) members hm
  · cases hstart

end WellFormed

end Members

/-! ## Values of finished tables -/

theorem membersToValues_eq_map (members : Members) :
    membersToValues members = members.map fun m => (m.1, m.2.toValue) := by
  induction members with
  | nil => rfl
  | cons m rest ih =>
    obtain ⟨name, node⟩ := m
    rw [membersToValues, ih]
    rfl

theorem tablesToValues_eq_map (tables : List Members) :
    tablesToValues tables = tables.map fun members => .table (membersToValues members) := by
  induction tables with
  | nil => rfl
  | cons members rest ih =>
    rw [tablesToValues, ih]
    rfl

/-- A table keeps the names of its members when it becomes a value. -/
theorem map_fst_membersToValues (members : Members) :
    (membersToValues members).map Prod.fst = members.map Prod.fst := by
  rw [membersToValues_eq_map, List.map_map]
  rfl

/-- A table of well-formed values, given by its nodes. -/
theorem wellFormed_table_membersToValues {members : Members}
    (hnodup : (members.map Prod.fst).Nodup) (h : ∀ m ∈ members, m.2.toValue.WellFormed) :
    (Toml.table (membersToValues members)).WellFormed := by
  refine .table ?_ fun m hm => ?_
  · rw [map_fst_membersToValues]
    exact hnodup
  · rw [membersToValues_eq_map] at hm
    obtain ⟨m', hm', rfl⟩ := List.mem_map.mp hm
    exact h m' hm'

/-- A node that is well formed becomes a value that is. -/
theorem Node.WellFormed.toValue {node : Node} (h : node.WellFormed) : node.toValue.WellFormed := by
  induction h with
  | value h =>
    rw [Node.toValue]
    exact h
  | table hnodup h ih =>
    rw [Node.toValue]
    exact wellFormed_table_membersToValues hnodup ih
  | @tables last earlier hnodup h ih =>
    have htable : ∀ members ∈ last :: earlier,
        (Toml.table (membersToValues members)).WellFormed := fun members hm =>
      wellFormed_table_membersToValues (hnodup members hm) (ih members hm)
    rw [Node.toValue, tablesToValues_eq_map]
    refine .array fun v hv => ?_
    rcases List.mem_append.mp hv with hv | hv
    -- the tables are kept from the last to the first, so the head is the one that comes last
    · obtain ⟨members, hm, rfl⟩ := List.mem_map.mp (List.mem_reverse.mp hv)
      exact htable members (List.mem_cons_of_mem _ hm)
    · rw [List.mem_singleton.mp hv]
      exact htable last List.mem_cons_self

/-- A document that is well formed becomes a table that is. -/
theorem Members.WellFormed.toValue {members : Members} (h : members.WellFormed) :
    (Toml.table (membersToValues members)).WellFormed :=
  wellFormed_table_membersToValues h.nodup fun m hm => (h.nodes m hm).toValue

/-! ## Values in the text -/

/-- Integers that are read are in range. -/
theorem fitsInteger_of_integer? {cs : List Char} {i : Int} (h : integer? cs = some i) :
    FitsInteger i := by
  unfold integer? at h
  have hrange := (Option.filter_eq_some_iff.mp h).2
  rw [Bool.and_eq_true, decide_eq_true_iff, decide_eq_true_iff] at hrange
  exact hrange

/-- A word is a well-formed value, whatever it spells. -/
theorem wellFormed_of_scalar? {cs : List Char} {v : Toml} (h : scalar? cs = some v) :
    v.WellFormed := by
  rw [scalar?] at h
  split at h
  · cases h
    exact .bool true
  · split at h
    · cases h
      exact .bool false
    · split at h
      · cases h
        exact .moment _
      · split at h
        · cases h
          exact .decimal _
        · obtain ⟨i, hi, rfl⟩ := Option.map_eq_some_iff.mp h
          exact .integer (fitsInteger_of_integer? hi)

/-- A word is read as a well-formed value, be it a date with a time of day behind it. -/
theorem wellFormed_of_readScalar {cs rest : List Char} {v : Toml}
    (h : readScalar cs = some (v, rest)) : v.WellFormed := by
  rw [readScalar] at h
  split at h
  · split at h
    · dsimp only at h
      split at h
      · cases h
        exact .moment _
      · cases h
    · cases h
      exact .moment _
  · obtain ⟨v, hv, heq⟩ := Option.map_eq_some_iff.mp h
    cases heq
    exact wellFormed_of_scalar? hv

section Nested

variable {value : List Char → Option (Toml × List Char)}

/-- The items of an array are what the reader of one item makes of the text. -/
theorem wellFormed_of_readItems
    (hitem : ∀ {cs v rest}, value cs = some (v, rest) → v.WellFormed) {fuel : Nat}
    {done items : List Toml} {cs rest : List Char} (hdone : ∀ v ∈ done, v.WellFormed)
    (h : readItems value fuel done cs = some (items, rest)) : ∀ v ∈ items, v.WellFormed := by
  -- over the fuel, of which each item takes one, with any items read so far
  induction fuel generalizing done cs with
  | zero => cases h
  | succ fuel ih =>
    rw [readItems] at h
    split at h
    · cases h
      exact fun v hv => hdone v (List.mem_reverse.mp hv)
    · rw [Option.bind_eq_bind, Option.bind_eq_some_iff] at h
      obtain ⟨⟨v, cs⟩, hv, h⟩ := h
      have hdone' : ∀ w ∈ v :: done, w.WellFormed := by
        intro w hw
        rcases List.mem_cons.mp hw with rfl | hw
        · exact hitem hv
        · exact hdone w hw
      dsimp only at h
      split at h
      · cases h
        exact fun w hw => hdone' w (List.mem_reverse.mp hw)
      · exact ih hdone' h
      · cases h

/-- The members of an inline table are put into a table one after the other. -/
theorem wellFormed_of_readMembers
    (hvalue : ∀ {cs v rest}, value cs = some (v, rest) → v.WellFormed) {fuel : Nat}
    {members members' : Members} {cs rest : List Char} (hmembers : members.WellFormed)
    (h : readMembers value fuel members cs = some (members', rest)) : members'.WellFormed := by
  -- over the fuel, of which each member takes one, with any members read so far
  induction fuel generalizing members cs with
  | zero => cases h
  | succ fuel ih =>
    rw [readMembers, Option.bind_eq_bind, Option.bind_eq_some_iff] at h
    obtain ⟨⟨⟨path, key⟩, cs⟩, -, h⟩ := h
    dsimp only at h
    split at h
    · rw [Option.bind_eq_bind, Option.bind_eq_some_iff] at h
      obtain ⟨⟨v, cs⟩, hv, h⟩ := h
      rw [Option.bind_eq_bind, Option.bind_eq_some_iff] at h
      obtain ⟨extended, hput, h⟩ := h
      have hextended := hmembers.put (hvalue hv) hput
      dsimp only at h
      split at h
      · cases h
        exact hextended
      · exact ih hextended h
      · cases h
    · cases h

end Nested

theorem wellFormed_of_readText {cs rest : List Char} {v : Toml}
    (h : (readText cs).map (fun (s, rest) => (Toml.text s, rest)) = some (v, rest)) :
    v.WellFormed := by
  obtain ⟨⟨s, rest'⟩, -, heq⟩ := Option.map_eq_some_iff.mp h
  cases heq
  exact .text s

/-- Values that are read are well formed. -/
theorem wellFormed_of_readValue {depth : Nat} {cs rest : List Char} {v : Toml}
    (h : readValue depth cs = some (v, rest)) : v.WellFormed := by
  -- over the levels that are left, since an array or a table reads its parts one level below
  induction depth generalizing cs v rest with
  | zero =>
    unfold readValue at h
    split at h
    · exact wellFormed_of_readText h
    · exact wellFormed_of_readText h
    · cases h
    · cases h
    · exact wellFormed_of_readScalar h
  | succ depth ih =>
    unfold readValue at h
    split at h
    · exact wellFormed_of_readText h
    · exact wellFormed_of_readText h
    · obtain ⟨⟨items, rest'⟩, hitems, heq⟩ := Option.map_eq_some_iff.mp h
      cases heq
      exact .array (wellFormed_of_readItems ih (fun v hv => absurd hv List.not_mem_nil) hitems)
    · dsimp only at h
      split at h
      · cases h
        exact .table List.nodup_nil fun m hm => absurd hm List.not_mem_nil
      · obtain ⟨⟨members, rest'⟩, hmembers, heq⟩ := Option.map_eq_some_iff.mp h
        cases heq
        exact (wellFormed_of_readMembers ih Members.wellFormed_nil hmembers).toValue
    · exact wellFormed_of_readScalar h

/-! ## Lines -/

theorem Document.wellFormed_put {d d' : Document} {path : List String} {key : String} {v : Toml}
    (hd : d.root.WellFormed) (hv : v.WellFormed) (h : d.put path key v = some d') :
    d'.root.WellFormed := by
  obtain ⟨root, hroot, rfl⟩ := Option.map_eq_some_iff.mp h
  exact hd.change (fun hinner hput => hinner.put hv hput) hroot

theorem Document.wellFormed_startTable {d d' : Document} {path : List String} {key : String}
    (hd : d.root.WellFormed) (h : d.startTable path key = some d') : d'.root.WellFormed := by
  obtain ⟨root, hroot, rfl⟩ := Option.map_eq_some_iff.mp h
  exact hd.change (fun hinner hstart => hinner.startTable hstart) hroot

theorem Document.wellFormed_startElement {d d' : Document} {path : List String} {key : String}
    (hd : d.root.WellFormed) (h : d.startElement path key = some d') : d'.root.WellFormed := by
  obtain ⟨root, hroot, rfl⟩ := Option.map_eq_some_iff.mp h
  exact hd.change (fun hinner hstart => hinner.startElement hstart) hroot

/-- Line by line, a document that is read stays well formed. -/
theorem wellFormed_of_readLines {fuel : Nat} {d d' : Document} {cs : List Char}
    (hd : d.root.WellFormed) (h : readLines fuel d cs = some d') : d'.root.WellFormed := by
  -- over the fuel, of which every line takes one, with any document read so far
  induction fuel generalizing d cs with
  | zero => cases h
  | succ fuel ih =>
    rw [readLines] at h
    simp only [Option.bind_eq_bind] at h
    split at h
    · cases h
      exact hd
    · exact ih hd h
    · exact ih hd h
    · obtain ⟨rest, -, h⟩ := Option.bind_eq_some_iff.mp h
      exact ih hd h
    · obtain ⟨⟨⟨path, key⟩, rest⟩, -, h⟩ := Option.bind_eq_some_iff.mp h
      dsimp only at h
      split at h
      · obtain ⟨d', hstart, h⟩ := Option.bind_eq_some_iff.mp h
        obtain ⟨rest, -, h⟩ := Option.bind_eq_some_iff.mp h
        exact ih (d.wellFormed_startElement hd hstart) h
      · cases h
    · obtain ⟨⟨⟨path, key⟩, rest⟩, -, h⟩ := Option.bind_eq_some_iff.mp h
      dsimp only at h
      split at h
      · obtain ⟨d', hstart, h⟩ := Option.bind_eq_some_iff.mp h
        obtain ⟨rest, -, h⟩ := Option.bind_eq_some_iff.mp h
        exact ih (d.wellFormed_startTable hd hstart) h
      · cases h
    · obtain ⟨⟨⟨path, key⟩, rest⟩, -, h⟩ := Option.bind_eq_some_iff.mp h
      dsimp only at h
      split at h
      · obtain ⟨⟨v, rest⟩, hv, h⟩ := Option.bind_eq_some_iff.mp h
        obtain ⟨d', hput, h⟩ := Option.bind_eq_some_iff.mp h
        obtain ⟨rest, -, h⟩ := Option.bind_eq_some_iff.mp h
        exact ih (d.wellFormed_put hd (wellFormed_of_readValue hv) hput) h
      · cases h

/-- **What a document denotes is well formed.** -/
theorem wellFormed_read {cs : List Char} {members : List (String × Toml)}
    (h : Toml.read cs = some members) : (Toml.table members).WellFormed := by
  obtain ⟨d, hd, rfl⟩ := Option.map_eq_some_iff.mp h
  exact (wellFormed_of_readLines Members.wellFormed_nil hd).toValue

end RunJournal.Toml
