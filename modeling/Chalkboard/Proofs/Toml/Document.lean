import Chalkboard.Proofs.Toml.Values

/-!
# Written TOML

A document is read back as it was written (`read?_write`): its values line by line, and each of its
tables under a header. What a line does to the entries read so far is said by `Leads`, which holds
whatever follows the line; lines one after the other are put together by `Leads.trans`.
-/

namespace Chalkboard.Toml

open Text

/-! ## Entries -/

section Entries

variable {entries done inner : Entries} {key : String} {v : Value}

theorem get?_eq_none (h : key ∉ entries.map Prod.fst) : entries.get? key = none := by
  have hfind : entries.find? (fun entry => entry.1 == key) = none := by
    refine List.find?_eq_none.2 fun entry hentry hkey => h ?_
    exact List.mem_map.2 ⟨entry, hentry, eq_of_beq hkey⟩
  exact Option.map_eq_none_iff.2 hfind

theorem get?_last (h : key ∉ done.map Prod.fst) :
    Entries.get? (done ++ [(key, v)]) key = some v := by
  have hnone : done.find? (fun entry => entry.1 == key) = none :=
    Option.map_eq_none_iff.1 (get?_eq_none h)
  unfold Entries.get?
  rw [List.find?_append, hnone]
  simp

/-- A new key goes to the end. -/
theorem put_new (h : key ∉ entries.map Prod.fst) (v : Value) :
    entries.put key v = entries ++ [(key, v)] := by
  unfold Entries.put
  rw [get?_eq_none h]
  rfl

theorem put_last (h : key ∉ done.map Prod.fst) (v v' : Value) :
    Entries.put (done ++ [(key, v)]) key v' = done ++ [(key, v')] := by
  have hsame : done.map (fun entry => if entry.1 == key then (key, v') else entry) = done := by
    refine (List.map_congr_left (g := id) fun entry hentry => ?_).trans (List.map_id done)
    have hkey : ¬ (entry.1 == key) = true := fun hkey =>
      h (List.mem_map.2 ⟨entry, hentry, eq_of_beq hkey⟩)
    rw [if_neg hkey]
    rfl
  unfold Entries.put
  rw [get?_last h, Option.isSome_some, if_pos rfl, List.map_append, hsame]
  simp

theorem add_new (h : key ∉ entries.map Prod.fst) (v : Value) :
    entries.add [] key v = some (entries ++ [(key, v)]) := by
  unfold Entries.add Entries.within
  rw [get?_eq_none h, put_new h]
  rfl

end Entries

/-! ## Keys -/

/-- A key that needs no quotes. -/
def BareKey (key : String) : Prop :=
  key.toList ≠ [] ∧ ∀ c ∈ key.toList, isKeyChar c = true

section Keys

variable {key : String} {rest : List Char}

theorem BareKey.begins (hkey : BareKey key) : Begins isKeyChar key.toList :=
  begins_of_forall hkey.1 hkey.2

theorem BareKey.simpleKey (hkey : BareKey key)
    (hrest : rest.head?.all (!isKeyChar ·) = true) : Scans simpleKey key.toList key rest := by
  have hbegins : Begins isKeyChar (key.toList ++ rest) := hkey.begins.append rest
  refine Scans.look (Scans.peek?_look (key.toList ++ rest)) ?_
  split
  · next h => exact absurd h (hbegins.ne (by decide))
  · next h => exact absurd h (hbegins.ne (by decide))
  · refine Scans.map (Scans.takeWhile hkey.2 hrest) ?_
    rw [if_neg (by simpa using hkey.1), String.ofList_toList]

/-- A key is read up to what follows it, blanks included. -/
theorem BareKey.dottedKey (hkey : BareKey key) (n : Nat)
    (hrest : Begins (fun c => c = '=' || c = ']') rest) :
    Scans dottedKey (key.toList ++ List.replicate n ' ') ([], key) rest := by
  have hmark {p : Char → Bool} (hequals : p '=' = false) (hclose : p ']' = false) (c : Char)
      (hc : p c = true) : (decide (c = '=') || decide (c = ']')) = false := by
    rw [Bool.or_eq_false_iff, decide_eq_false_iff_not, decide_eq_false_iff_not]
    constructor <;> rintro rfl
    · rw [hequals] at hc
      cases hc
    · rw [hclose] at hc
      cases hc
  have hstop : (List.replicate n ' ' ++ rest).head?.all (!isKeyChar ·) = true := by
    cases n with
    | zero => exact hrest.stops (hmark (by decide) (by decide))
    | succ n => rfl
  have hspacing : Scans spacing (List.replicate n ' ') () rest :=
    scans_spacing n (hrest.stops (hmark rfl rfl))
  refine Scans.bind (hkey.simpleKey hstop) (Scans.last hspacing ?_)
  exact Scans.look (Scans.accept_else (hrest.not_prefix rfl [])) (Scans.pure _ _)

end Keys

/-! ## Lines -/

namespace Draft

variable {d d' : Draft} {rest : List Char} {fuel : Nat}

/-- What is read behind the text depends only on what the text leads to. -/
def Leads (d : Draft) (text : List Char) (d' : Draft) : Prop :=
  ∀ rest r, (∀ fuel, rest.length < fuel → Scans (d'.lines fuel) rest r []) →
    ∀ fuel, (text ++ rest).length < fuel → Scans (d.lines fuel) (text ++ rest) r []

theorem Leads.refl (d : Draft) : d.Leads [] d :=
  fun _ _ h => h

theorem Leads.trans {d'' : Draft} {text text' : List Char} (h : d.Leads text d')
    (h' : d'.Leads text' d'') : d.Leads (text ++ text') d'' := by
  intro rest r hr
  rw [List.append_assoc]
  exact h (text' ++ rest) r (h' rest r hr)

/-- At the end of the text everything has been read. -/
theorem lines_end (d : Draft) (fuel : Nat) : Scans (d.lines (fuel + 1)) [] d [] := by
  unfold lines
  refine Scans.look (scans_spacing 0 rfl) (Scans.look (Scans.peek?_look []) ?_)
  refine Scans.look (Scans.accept_else nofun) (Scans.look (Scans.pure d []) ?_)
  refine Scans.look (scans_spacing 0 rfl) (Scans.look (scans_comment nofun) ?_)
  refine Scans.look (scans_lineBreak_none nofun nofun) ?_
  exact Scans.look (Scans.rest_look []) (Scans.pure d [])

/-- Behind what a line says the next line begins. -/
theorem lines_next {r : Draft} (hlines : Scans (d.lines fuel) rest r []) :
    Scans (do
      spacing
      comment
      if ← lineBreak then d.lines fuel
      else if (← Scan.rest).isEmpty then return d
      else failure) ('\n' :: rest) r [] := by
  refine Scans.look (scans_spacing 0 rfl) (Scans.look (scans_comment nofun) ?_)
  exact Scans.bind (scans_lineBreak (rest ++ [])) hlines

/-- An empty line leads nowhere. -/
theorem leads_blank (d : Draft) : d.Leads ['\n'] d := by
  intro rest r hr fuel hfuel
  rw [List.length_append, List.length_singleton] at hfuel
  obtain ⟨fuel, rfl⟩ : ∃ n, fuel = n + 1 := ⟨fuel - 1, by omega⟩
  have hopen : ¬ ['['] <+: '\n' :: rest ++ [] := fun h => by cases (List.cons_prefix_cons.1 h).1
  unfold lines
  refine Scans.look (scans_spacing 0 rfl) (Scans.look (Scans.peek?_look _) ?_)
  refine Scans.look (Scans.accept_else hopen) (Scans.look (Scans.pure d _) ?_)
  exact lines_next (hr fuel (by omega))

/-- Neither an empty line nor a comment begins here. -/
theorem not_skipped {cs : List Char} (h : Solid cs) :
    ¬ (cs.head?.isNone || decide (cs.head? = some '#') || decide (cs.head? = some '\n') ||
      decide (cs.head? = some '\r')) = true := by
  have hsome : cs.head?.isNone = false := by
    obtain ⟨c, cs, rfl, -⟩ := h.cons_eq
    rfl
  have hcomment : cs.head? ≠ some '#' := h.ne rfl
  have hbreak : cs.head? ≠ some '\n' := h.ne rfl
  have hreturn : cs.head? ≠ some '\r' := h.ne rfl
  simp [hsome, hcomment, hbreak, hreturn]

theorem scans_entry {key : String} (hkey : BareKey key) {v : Value} (hv : v.Flat)
    {entries : Entries} (hfuel : v.write.toList.length < fuel) (hrest : Ends rest)
    (hadd : d.entries.under (fun inner => inner.add [] key v) d.current = some entries) :
    Scans (d.entry fuel) ((key.toList ++ [' ']) ++ (['='] ++ ([' '] ++ v.write.toList)))
      ⟨entries, d.current⟩ rest := by
  have hvalue : Scans (value maxDepth fuel) v.write.toList v rest :=
    value_flat hv hrest (by decide) hfuel
  have hsolid : Solid (v.write.toList ++ rest) := hv.solid.append rest
  refine Scans.bind (hkey.dottedKey 1 rfl) (Scans.bind (Scans.expect ['='] _) ?_)
  refine Scans.bind (hsolid.scans_spacing 1) (Scans.map hvalue ?_)
  rw [hadd]

/-- A line with a key and a value adds them to the table at the end of the path. -/
theorem leads_entry {key : String} (hkey : BareKey key) {v : Value} (hv : v.Flat)
    {entries : Entries}
    (hadd : d.entries.under (fun inner => inner.add [] key v) d.current = some entries) :
    d.Leads (key ++ " = " ++ v.write ++ "\n").toList ⟨entries, d.current⟩ := by
  intro rest r hr fuel hfuel
  have htext : (key ++ " = " ++ v.write ++ "\n").toList ++ rest =
      ((key.toList ++ [' ']) ++ (['='] ++ ([' '] ++ v.write.toList))) ++ '\n' :: rest := by simp
  rw [htext] at hfuel ⊢
  simp only [List.length_append, List.length_cons, List.length_nil] at hfuel
  obtain ⟨fuel, rfl⟩ : ∃ n, fuel = n + 1 := ⟨fuel - 1, by omega⟩
  have hbegins : Begins isKeyChar (((key.toList ++ [' ']) ++ (['='] ++ ([' '] ++ v.write.toList))) ++
      '\n' :: rest ++ []) :=
    (((hkey.begins.append _).append _).append _).append _
  have hsolid : Solid _ := hbegins.imp (isSolid_of (by decide))
  unfold lines
  refine Scans.look (hsolid.scans_spacing 0) (Scans.look (Scans.peek?_look _) ?_)
  refine Scans.look (Scans.accept_else (hbegins.not_prefix (by decide) [])) ?_
  dsimp only
  rw [if_neg (not_skipped hsolid), if_neg Bool.false_ne_true]
  exact Scans.bind (scans_entry hkey hv (by omega) rfl hadd) (lines_next (hr fuel (by omega)))

/-- A header opens a table. -/
theorem leads_header {key : String} (hkey : BareKey key) {entries : Entries}
    (hopen : d.entries.openTable [] key = some entries) :
    d.Leads ("[" ++ key ++ "]\n").toList ⟨entries, [key]⟩ := by
  intro rest r hr fuel hfuel
  have htext : ("[" ++ key ++ "]\n").toList ++ rest =
      ['['] ++ ((key.toList ++ [']']) ++ '\n' :: rest) := by simp
  rw [htext] at hfuel ⊢
  simp only [List.length_append, List.length_cons, List.length_nil] at hfuel
  obtain ⟨fuel, rfl⟩ : ∃ n, fuel = n + 1 := ⟨fuel - 1, by omega⟩
  have hsolid : Solid (['['] ++ ((key.toList ++ [']']) ++ '\n' :: rest) ++ []) := rfl
  have hheader : Scans d.header (key.toList ++ [']']) ⟨entries, [key]⟩ ('\n' :: rest ++ []) := by
    have hbegins : Begins isKeyChar (key.toList ++ [']'] ++ ('\n' :: rest ++ [])) :=
      (hkey.begins.append _).append _
    have hspacing : Scans spacing [] () (key.toList ++ [']'] ++ ('\n' :: rest ++ [])) :=
      Solid.scans_spacing (hbegins.imp (isSolid_of (by decide))) 0
    have hname : Scans dottedKey key.toList ([], key) ([']'] ++ ('\n' :: rest ++ [])) := by
      have hclose : Begins (fun c => c = '=' || c = ']') ([']'] ++ ('\n' :: rest ++ [])) := rfl
      have hname := hkey.dottedKey 0 hclose
      rwa [List.replicate_zero, List.append_nil] at hname
    refine Scans.look (Scans.accept_else (hbegins.not_prefix (by decide) [])) ?_
    refine Scans.look hspacing (Scans.bind hname (Scans.map (Scans.expect [']'] _) ?_))
    rw [if_neg Bool.false_ne_true, hopen]
    rfl
  unfold lines
  refine Scans.look (hsolid.scans_spacing 0) (Scans.look (Scans.peek?_look _) ?_)
  refine Scans.bind (Scans.accept ['['] _) ?_
  dsimp only
  rw [if_neg (not_skipped hsolid), if_pos rfl]
  exact Scans.bind hheader (lines_next (hr fuel (by omega)))

end Draft

/-! ## Documents -/

/-- Entries that each stand on a line: different keys without quotes, and values that are no
tables. -/
structure Lined (entries : Entries) : Prop where
  bare : ∀ entry ∈ entries, BareKey entry.1
  flat : ∀ entry ∈ entries, entry.2.Flat
  nodup : (entries.map Prod.fst).Nodup

/-- A place for entries: `plug` puts them at the end of the path. -/
def Places (path : List String) (plug : Entries → Entries) : Prop :=
  ∀ f inner, (plug inner).under f path = (f inner).map plug

theorem places_here : Places [] id := by
  intro f inner
  exact Option.map_id'.symm

theorem places_last {done : Entries} {key : String} (h : key ∉ done.map Prod.fst) :
    Places [key] fun inner => done ++ [(key, .table .header inner)] := by
  intro f inner
  unfold Entries.under
  rw [get?_last h]
  show ((Entries.under f inner []).map _) = _
  refine Option.map_congr fun inner' _ => ?_
  exact put_last h _ _

theorem Lined.tail {entry : String × Value} {entries : Entries} (h : Lined (entry :: entries)) :
    Lined entries where
  bare := fun e he => h.bare e (List.mem_cons_of_mem entry he)
  flat := fun e he => h.flat e (List.mem_cons_of_mem entry he)
  nodup := (List.nodup_cons.1 h.nodup).2

theorem Value.Flat.isTable {v : Value} (hv : v.Flat) : v.isTable = false := by
  rcases hv.array_or_atomic with ⟨items, rfl, -⟩ | hatomic
  · rfl
  · cases v with
    | table origin entries => exact hatomic.elim
    | tables items => exact hatomic.elim
    | _ => rfl

theorem writeValues_cons {key : String} {v : Value} (hv : v.Flat) (entries : Entries) :
    (writeValues ((key, v) :: entries)).toList =
      (key ++ " = " ++ v.write ++ "\n").toList ++ (writeValues entries).toList := by
  unfold writeValues
  rw [List.filter_cons_of_pos (by simp [hv.isTable]), List.map_cons, String.join_cons,
    String.toList_append]

/-- Lines with values add them one by one. -/
theorem leads_values {path : List String} {plug : Entries → Entries} (hplug : Places path plug)
    {inner values : Entries} (hvalues : Lined values)
    (hnew : ((inner ++ values).map Prod.fst).Nodup) :
    Draft.Leads ⟨plug inner, path⟩ (writeValues values).toList ⟨plug (inner ++ values), path⟩ := by
  induction values generalizing inner with
  | nil =>
    rw [List.append_nil]
    exact Draft.Leads.refl _
  | cons entry values ih =>
    obtain ⟨key, v⟩ := entry
    have hkey : key ∉ inner.map Prod.fst := by
      rw [List.map_append, List.nodup_append] at hnew
      exact fun hmem => hnew.2.2 key hmem key List.mem_cons_self rfl
    have hbare := hvalues.bare _ List.mem_cons_self
    have hflat := hvalues.flat _ List.mem_cons_self
    have hadd : (plug inner).under (fun inner => inner.add [] key v) path =
        some (plug (inner ++ [(key, v)])) := by
      rw [hplug, add_new hkey]
      rfl
    have hline : Draft.Leads ⟨plug inner, path⟩ (key ++ " = " ++ v.write ++ "\n").toList
        ⟨plug (inner ++ [(key, v)]), path⟩ := Draft.leads_entry hbare hflat hadd
    have happend : inner ++ (key, v) :: values = inner ++ [(key, v)] ++ values := by simp
    rw [happend] at hnew ⊢
    rw [writeValues_cons hflat]
    exact hline.trans (ih hvalues.tail hnew)

/-- A table with a header of its own. -/
abbrev Section := String × Entries

/-- The table as an entry. -/
def Section.entry (s : Section) : String × Value :=
  (s.1, .table .header s.2)

/-- The table's text. -/
def Section.write (s : Section) : String :=
  "[" ++ s.1 ++ "]\n" ++ writeValues s.2

theorem openTable_new {done : Entries} {key : String} (h : key ∉ done.map Prod.fst) :
    done.openTable [] key = some (done ++ [(key, .table .header [])]) := by
  have hput := put_new h (.table .header [])
  unfold Entries.openTable Entries.under
  rw [get?_eq_none h]
  exact congrArg some hput

theorem leads_section {done : Entries} {s : Section} (hkey : BareKey s.1) (hvalues : Lined s.2)
    (hnew : s.1 ∉ done.map Prod.fst) (path : List String) :
    Draft.Leads ⟨done, path⟩ s.write.toList ⟨done ++ [s.entry], [s.1]⟩ := by
  have hheader : Draft.Leads ⟨done, path⟩ ("[" ++ s.1 ++ "]\n").toList
      ⟨done ++ [(s.1, .table .header [])], [s.1]⟩ :=
    Draft.leads_header hkey (openTable_new hnew)
  have hbody : Draft.Leads ⟨done ++ [(s.1, .table .header [])], [s.1]⟩ (writeValues s.2).toList
      ⟨done ++ [s.entry], [s.1]⟩ :=
    leads_values (places_last hnew) hvalues hvalues.nodup
  rw [Section.write, String.toList_append]
  exact hheader.trans hbody

/-- Further tables stand behind an empty line each. -/
theorem leads_sections {done : Entries} {path : List String} {sections : List Section}
    (hkeys : ∀ s ∈ sections, BareKey s.1) (hvalues : ∀ s ∈ sections, Lined s.2)
    (hnew : ((done ++ sections.map Section.entry).map Prod.fst).Nodup) :
    ∃ path', Draft.Leads ⟨done, path⟩ (sections.flatMap fun s => '\n' :: s.write.toList)
      ⟨done ++ sections.map Section.entry, path'⟩ := by
  induction sections generalizing done path with
  | nil =>
    refine ⟨path, ?_⟩
    rw [List.map_nil, List.append_nil]
    exact Draft.Leads.refl _
  | cons s sections ih =>
    have happend : done ++ (s :: sections).map Section.entry =
        done ++ [s.entry] ++ sections.map Section.entry := by simp
    rw [happend] at hnew ⊢
    have hkey : s.1 ∉ done.map Prod.fst := by
      rw [List.append_assoc, List.map_append, List.nodup_append] at hnew
      exact fun hmem => hnew.2.2 s.1 hmem s.1 List.mem_cons_self rfl
    obtain ⟨hbare, hkeys⟩ := List.forall_mem_cons.1 hkeys
    obtain ⟨hlined, hvalues⟩ := List.forall_mem_cons.1 hvalues
    have hthis := leads_section hbare hlined hkey path
    obtain ⟨path', hmore⟩ : ∃ path', Draft.Leads ⟨done ++ [s.entry], [s.1]⟩
        (sections.flatMap fun s => '\n' :: s.write.toList)
        ⟨done ++ [s.entry] ++ sections.map Section.entry, path'⟩ := ih hkeys hvalues hnew
    refine ⟨path', ?_⟩
    rw [List.flatMap_cons]
    exact ((Draft.leads_blank _).trans hthis).trans hmore

/-! ## The text of a document -/

theorem toList_intercalate_cons (text : String) (texts : List String) :
    (String.intercalate "\n" (text :: texts)).toList =
      text.toList ++ texts.flatMap fun t => '\n' :: t.toList := by
  induction texts generalizing text with
  | nil => simp
  | cons t texts ih =>
    rw [String.intercalate_cons_cons, String.toList_append, String.toList_append, ih]
    simp

/-- Values that are written on lines, and tables of such values under headers, all under different
keys. -/
structure Outlined (values : Entries) (sections : List Section) : Prop where
  top : Lined values
  bare : ∀ s ∈ sections, BareKey s.1
  lined : ∀ s ∈ sections, Lined s.2
  nodup : ((values ++ sections.map Section.entry).map Prod.fst).Nodup

section Documents

variable {values : Entries} {sections : List Section}

theorem write_eq (hvalues : ∀ entry ∈ values, entry.2.Flat) (sections : List Section) :
    write (values ++ sections.map Section.entry) = String.intercalate "\n"
      ((if (writeValues values).isEmpty then [] else [writeValues values]) ++
        sections.map Section.write) := by
  have htables (s : Section) : s.entry.2.isTable = true := rfl
  have hlines : writeValues (values ++ sections.map Section.entry) = writeValues values := by
    have hnone : (sections.map Section.entry).filter (fun entry => !entry.2.isTable) = [] := by
      refine List.filter_eq_nil_iff.2 fun entry hentry => ?_
      obtain ⟨s, -, rfl⟩ := List.mem_map.1 hentry
      simp [htables]
    unfold writeValues
    rw [List.filter_append, hnone, List.append_nil]
  unfold write
  dsimp only
  rw [hlines, List.filterMap_append, List.filterMap_eq_nil_iff.2, List.nil_append,
    List.filterMap_map]
  · rw [← List.filterMap_eq_map]
    rfl
  · intro entry hentry
    have hflat := (hvalues entry hentry).isTable
    split
    · next heq =>
      rw [heq] at hflat
      cases hflat
    · rfl

theorem begins_writeValues {entry : String × Value} (h : Lined (entry :: values)) :
    Begins isKeyChar (writeValues (entry :: values)).toList := by
  obtain ⟨key, v⟩ := entry
  have hkey := h.bare _ List.mem_cons_self
  rw [writeValues_cons (h.flat _ List.mem_cons_self)]
  simp only [String.toList_append, List.append_assoc]
  exact hkey.begins.append _

/-- The values come first, and every table behind an empty line. -/
theorem toList_write_values {entry : String × Value} (h : Lined (entry :: values))
    (sections : List Section) :
    (write (entry :: values ++ sections.map Section.entry)).toList =
      (writeValues (entry :: values)).toList ++ sections.flatMap fun s => '\n' :: s.write.toList := by
  have hsome : (writeValues (entry :: values)).isEmpty = false := by
    obtain ⟨c, cs, htext, -⟩ := (begins_writeValues h).cons_eq
    rw [Bool.eq_false_iff]
    intro hempty
    rw [String.isEmpty_iff.1 hempty] at htext
    cases htext
  rw [write_eq h.flat, hsome]
  show (String.intercalate "\n" (_ :: sections.map Section.write)).toList = _
  rw [toList_intercalate_cons, List.flatMap_map]

/-- Without values the first table comes first. -/
theorem toList_write_tables (s : Section) (sections : List Section) :
    (write ([] ++ (s :: sections).map Section.entry)).toList =
      s.write.toList ++ sections.flatMap fun s => '\n' :: s.write.toList := by
  have hnone : ∀ entry ∈ ([] : Entries), entry.2.Flat := fun _ h => absurd h List.not_mem_nil
  rw [write_eq hnone]
  show (String.intercalate "\n" (s.write :: sections.map Section.write)).toList = _
  rw [toList_intercalate_cons, List.flatMap_map]

/-- A document's text leads from nothing to its entries. -/
theorem leads_write (h : Outlined values sections) : ∃ path, Draft.Leads ⟨[], []⟩
    (write (values ++ sections.map Section.entry)).toList
    ⟨values ++ sections.map Section.entry, path⟩ := by
  obtain ⟨htop, hbare, hlined, hnodup⟩ := h
  cases values with
  | nil =>
    cases sections with
    | nil => exact ⟨[], Draft.Leads.refl _⟩
    | cons s sections =>
      obtain ⟨hkey, hbare⟩ := List.forall_mem_cons.1 hbare
      obtain ⟨hinner, hlined⟩ := List.forall_mem_cons.1 hlined
      have hfirst : Draft.Leads ⟨[], []⟩ s.write.toList ⟨[s.entry], [s.1]⟩ :=
        leads_section hkey hinner List.not_mem_nil []
      obtain ⟨path, hmore⟩ : ∃ path, Draft.Leads ⟨[s.entry], [s.1]⟩
          (sections.flatMap fun s => '\n' :: s.write.toList)
          ⟨[s.entry] ++ sections.map Section.entry, path⟩ := leads_sections hbare hlined hnodup
      rw [toList_write_tables]
      exact ⟨path, hfirst.trans hmore⟩
  | cons entry values =>
    have hvalues : Draft.Leads ⟨[], []⟩ (writeValues (entry :: values)).toList
        ⟨entry :: values, []⟩ := leads_values places_here htop htop.nodup
    obtain ⟨path, hmore⟩ : ∃ path, Draft.Leads ⟨entry :: values, []⟩
        (sections.flatMap fun s => '\n' :: s.write.toList)
        ⟨entry :: values ++ sections.map Section.entry, path⟩ := leads_sections hbare hlined hnodup
    rw [toList_write_values htop]
    exact ⟨path, hvalues.trans hmore⟩

/-- No document begins with a byte order mark. -/
theorem head?_write (h : Outlined values sections) (c : Char)
    (hc : (write (values ++ sections.map Section.entry)).toList.head? = some c) :
    c.toNat ≠ 0xfeff := by
  have hbegins : Begins (fun c => c = '[' || isKeyChar c)
      (write (values ++ sections.map Section.entry)).toList := by
    cases values with
    | nil =>
      cases sections with
      | nil => cases hc
      | cons s sections =>
        rw [toList_write_tables]
        have hopen : Begins (fun c => c = '[' || isKeyChar c) s.write.toList := by
          simp [Section.write, Begins]
        exact hopen.append _
    | cons entry values =>
      rw [toList_write_values h.top]
      have hkey := begins_writeValues h.top
      exact (hkey.imp fun c hc => by simp [hc]).append _
  intro hmark
  have hcode : Char.ofNat 0xfeff = c := hmark ▸ Char.ofNat_toNat c
  exact hbegins.ne (d := Char.ofNat 0xfeff) (by decide) (hcode ▸ hc)

theorem read?_eq_run? {text : String} (hmark : ∀ c, text.toList.head? = some c → c.toNat ≠ 0xfeff) :
    read? text = (Scan.run? (Draft.lines ⟨[], []⟩ (text.toList.length + 2)) text.toList).map
      Draft.entries := by
  unfold read?
  cases htext : text.toList with
  | nil => rfl
  | cons c rest =>
    dsimp only
    rw [if_neg (hmark c (htext ▸ rfl))]

/-- A written document is read back. -/
theorem read?_write (h : Outlined values sections) :
    read? (write (values ++ sections.map Section.entry)) =
      some (values ++ sections.map Section.entry) := by
  obtain ⟨path, hleads⟩ := leads_write h
  rw [read?_eq_run? (head?_write h)]
  generalize write (values ++ sections.map Section.entry) = text at hleads
  have hend (fuel : Nat) (hfuel : ([] : List Char).length < fuel) :
      Scans (Draft.lines ⟨values ++ sections.map Section.entry, path⟩ fuel) []
        ⟨values ++ sections.map Section.entry, path⟩ [] := by
    obtain ⟨fuel, rfl⟩ : ∃ n, fuel = n + 1 := ⟨fuel - 1, (Nat.sub_add_cancel hfuel).symm⟩
    exact Draft.lines_end _ fuel
  have hscans := hleads [] _ hend (text.toList.length + 2) (by rw [List.append_nil]; omega)
  rw [List.append_nil] at hscans
  rw [hscans.run?]
  rfl

end Documents

end Chalkboard.Toml
