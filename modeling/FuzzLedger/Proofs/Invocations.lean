import FuzzLedger.Proofs.Arguments

/-!
# Written invocations are read back

An invocation can be written if its paths are not empty and its numbers have 64 bits
(`Invocation.Expressible`); the strings in it are any.  Reading follows the words of its command
down to the place of the command:

* `Command.fits_options`, `Command.admits_positionals` — each place has the options and the
  positionals that its command is written with.
* `scan_tail` — behind `--` the positionals of the command are read.
* `scan_written` — so reading ends at the place of the command, with its own options there and
  every global option at one of the places on the way (`Found`).
* `Found.innermost_eq` — an option that is given once is found, at whichever place it stands.
* `Invocation.parse_written` — hence the invocation is read back, wherever its global options stand.
-/

set_option autoImplicit false

namespace FuzzLedger

open CommandLine

/-! ## Commands -/

namespace Command

/-- The identifiers of a command have 64 bits, and the files to take in, one at least, have names.
-/
def Expressible : Command → Prop
  | .create (.success batchId opcodeId _) => Json.IsId batchId ∧ Json.IsId opcodeId
  | .create (.failure batchId opcodeId _ _) => Json.IsId batchId ∧ Json.IsId opcodeId
  | .create (.state failureId _ _ _) => Json.IsId failureId
  | .showBatch id => Json.IsId id
  | .delete _ id => Json.IsId id
  | .ingest files => files ≠ [] ∧ ∀ f ∈ files, f ≠ ""
  | _ => True

theorem place_hasChildren (c : Command) : c.place.hasChildren = false := by
  cases c with
  | create row => cases row <;> rfl
  | _ => rfl

/-- The words of a command lead to its place. -/
theorem child?_words (c : Command) : c.words.foldlM Place.child? .root = some c.place := by
  cases c with
  | create row => cases row <;> rfl
  | _ => rfl

/-- The options of a command are those of its place. -/
theorem fits_options {c : Command} (h : c.Expressible) :
    List.Forall₂ Fits c.place.ownOptions c.options := by
  cases c with
  | create row =>
    cases row with
    | user | arch => exact .nil
    | host _ archName | opcode _ archName => exact .cons ⟨rfl, .text archName⟩ .nil
    | batch fuzzerHost testingHost username =>
      exact .cons ⟨rfl, .text fuzzerHost⟩ (.cons ⟨rfl, .text testingHost⟩
        (.cons ⟨rfl, .text username⟩ .nil))
    | success _ _ count =>
      exact .cons ⟨rfl, .int64 h.1⟩ (.cons ⟨rfl, .int64 h.2⟩ (.cons ⟨rfl, .int32 count⟩ .nil))
    | failure _ _ pretty arguments =>
      exact .cons ⟨rfl, .int64 h.1⟩ (.cons ⟨rfl, .int64 h.2⟩ (.cons ⟨rfl, .text pretty⟩
        (.cons ⟨rfl, .text arguments⟩ .nil)))
    | state _ location expected actual =>
      exact .cons ⟨rfl, .int64 h⟩ (.cons ⟨rfl, .text location⟩ (.cons ⟨rfl, .text expected⟩
        (.cons ⟨rfl, .text actual⟩ .nil)))
  | _ => exact .nil

theorem takes_options {c : Command} (h : c.Expressible) : ∀ q ∈ c.options, c.place.Takes q := by
  intro q hq
  have hfits : List.Forall₂ (flip Fits) c.options c.place.ownOptions := (fits_options h).flip
  obtain ⟨o, ho, hfits⟩ := Json.exists_of_forall₂ hfits hq
  exact Place.takes_of_fits (List.mem_append_left _ ho) hfits

/-- The positionals of a command are those of its place, save for files. -/
theorem admits_positionals {c : Command} (h : c.Expressible) :
    (c.place.repeats = false ∧ List.Forall₂ ValueKind.Admits c.place.positionals c.positionals) ∨
      ∃ files, c = .ingest files := by
  cases c with
  | ingest files => exact .inr ⟨files, rfl⟩
  | create row =>
    cases row with
    | user name | arch name | host name _ | opcode name _ =>
      exact .inl ⟨rfl, .cons (.text name) .nil⟩
    | _ => exact .inl ⟨rfl, .nil⟩
  | showBatch id => exact .inl ⟨rfl, .cons (.int64 h) .nil⟩
  | delete e id => exact .inl ⟨rfl, .cons (.entity e) (.cons (.int64 h) .nil)⟩
  | _ => exact .inl ⟨rfl, .nil⟩

end Command

namespace CommandLine

theorem tail_of_positionals {c : Command} (h : c.positionals ≠ []) :
    c.tail = "--" :: c.positionals.map Value.word := by
  unfold Command.tail
  split
  · rename_i hnil
    exact absurd hnil h
  · rfl

/-- **Behind `--` every word is a positional**, and they are those of the command. -/
theorem scan_tail {c : Command} (hc : c.Expressible) {opts : List (String × Value)}
    (hcommand : (⟨c.place, opts, c.positionals⟩ : Matched).command? = some c) :
    scan c.place (taken opts) c.tail = .ok [⟨c.place, opts, c.positionals⟩] := by
  by_cases hvalues : c.positionals = []
  · rw [hvalues] at hcommand ⊢
    rw [show c.tail = [] by rw [Command.tail, hvalues]]
    exact finish_of_command c.place_hasChildren (settles_taken opts) hcommand
  · have hread : ∃ st', scan c.place { taken opts with ended := true }
        (c.positionals.map Value.word) = finish c.place st' [] ∧ st'.Settles opts c.positionals := by
      rcases Command.admits_positionals hc with ⟨hsingle, hadmits⟩ | ⟨files, rfl⟩
      · exact scan_positionals hsingle rfl ⟨_, rfl, rfl, rfl, rfl, rfl⟩ hadmits
      · exact scan_ingest opts hc.1 hc.2
    obtain ⟨st', hscan, hst'⟩ := hread
    rw [tail_of_positionals hvalues, scan_dashes, hscan]
    exact finish_of_command c.place_hasChildren hst' hcommand

/-! ## Places on the way -/

theorem Interleaved.append {α : Type} : ∀ xs ys : List α, Interleaved xs ys (xs ++ ys)
  | [], [] => .nil
  | [], _ :: ys => .right (Interleaved.append [] ys)
  | _ :: xs, ys => .left (Interleaved.append xs ys)

theorem Interleaved.perm {α : Type} {xs ys zs : List α} (h : Interleaved xs ys zs) :
    zs.Perm (xs ++ ys) := by
  induction h with
  | nil => exact .refl _
  | left _ ih => exact ih.cons _
  | right _ ih => exact (ih.cons _).trans List.perm_middle.symm

/-- What comes before the first element of one list is of the other. -/
theorem Interleaved.cons_left {α : Type} {x : α} {xs ys zs : List α}
    (h : Interleaved (x :: xs) ys zs) :
    ∃ ys₁ ys₂ zs', ys = ys₁ ++ ys₂ ∧ zs = ys₁ ++ x :: zs' ∧ Interleaved xs ys₂ zs' := by
  generalize hxs : x :: xs = l at h
  induction h with
  | nil => cases hxs
  | @left _ _ ys zs h _ =>
    cases hxs
    exact ⟨[], ys, zs, rfl, rfl, h⟩
  | @right y _ _ _ _ ih =>
    obtain ⟨ys₁, ys₂, zs', rfl, rfl, h⟩ := ih hxs
    exact ⟨y :: ys₁, ys₂, zs', rfl, rfl, h⟩

theorem Interleaved.of_map {α β : Type} {f : α → β} {xs ys : List α} {zs : List β}
    (h : Interleaved (xs.map f) (ys.map f) zs) :
    ∃ ws, zs = ws.map f ∧ Interleaved xs ys ws := by
  generalize hxs : xs.map f = l at h
  generalize hys : ys.map f = r at h
  induction h generalizing xs ys with
  | nil =>
    rw [List.map_eq_nil_iff] at hxs hys
    subst hxs hys
    exact ⟨[], rfl, .nil⟩
  | left _ ih =>
    obtain ⟨x, xs, rfl, rfl, rfl⟩ := List.map_eq_cons_iff.1 hxs
    obtain ⟨ws, rfl, h⟩ := ih rfl hys
    exact ⟨x :: ws, rfl, .left h⟩
  | right _ ih =>
    obtain ⟨y, ys, rfl, rfl, rfl⟩ := List.map_eq_cons_iff.1 hys
    obtain ⟨ws, rfl, h⟩ := ih hxs rfl
    exact ⟨y :: ws, rfl, .right h⟩

theorem text?_eq_some_iff {m : Matched} {name s : String} :
    m.text? name = some s ↔ m.options.lookup name = some (.text s) := by
  unfold Matched.text?
  split <;> simp_all

theorem format?_eq_some_iff {m : Matched} {f : OutputFormat} :
    m.format? = some f ↔ m.options.lookup "format" = some (.format f) := by
  unfold Matched.format?
  split <;> simp_all

/-- The arguments found on the way to a command: its own at the last place, and the given options
among all places. -/
structure Found (c : Command) (given : List (String × Value)) (levels : List Matched) : Prop where
  command : levels.getLast?.bind Matched.command? = some c
  mem_iff : ∀ o, o ∈ given ↔ ∃ m ∈ levels, o ∈ m.options
  nodup : ∀ m ∈ levels, (m.options.map Prod.fst).Nodup

theorem Found.single {c : Command} {m : Matched} (hcommand : m.command? = some c)
    (hnodup : (m.options.map Prod.fst).Nodup) : Found c m.options [m] :=
  ⟨hcommand, fun _ => by simp, by simpa using hnodup⟩

theorem Found.cons {c : Command} {given : List (String × Value)} {levels : List Matched}
    (h : Found c given levels) {m : Matched} (hnodup : (m.options.map Prod.fst).Nodup) :
    Found c (m.options ++ given) (m :: levels) where
  command := by
    have hcommand := h.command
    rw [Option.bind_eq_some_iff] at hcommand
    obtain ⟨last, hlast, hcommand⟩ := hcommand
    rw [List.getLast?_cons, hlast]
    exact hcommand
  mem_iff o := by rw [List.mem_append, h.mem_iff, List.exists_mem_cons_iff]
  nodup := List.forall_mem_cons.2 ⟨hnodup, h.nodup⟩

theorem Found.perm {c : Command} {given given' : List (String × Value)} {levels : List Matched}
    (h : Found c given levels) (hperm : given'.Perm given) : Found c given' levels :=
  ⟨h.command, fun o => hperm.mem_iff.trans (h.mem_iff o), h.nodup⟩

/-- **An option given once is found**, at whichever place it stands; one not given is not. -/
theorem Found.innermost_eq {c : Command} {given : List (String × Value)} {levels : List Matched}
    (h : Found c given levels) {α : Type} {get : Matched → Option α} {name : String}
    {wrap : α → Value} {value : Option α}
    (hget : ∀ m a, get m = some a ↔ m.options.lookup name = some (wrap a))
    (hvalue : ∀ a, (name, wrap a) ∈ given ↔ value = some a) :
    innermost get levels = value := by
  -- all places that have the option agree on its value, so it does not matter which one counts
  have hlevel : ∀ a, (∃ m ∈ levels, get m = some a) ↔ value = some a := fun a => by
    rw [← hvalue, h.mem_iff]
    exact exists_congr fun m => and_congr_right fun hm =>
      (hget m a).trans ⟨mem_of_lookup, lookup_of_mem (h.nodup m hm)⟩
  cases hfound : innermost get levels with
  | none =>
    have hnone : ∀ m ∈ levels, get m = none := by
      simpa [innermost] using hfound
    cases value with
    | none => rfl
    | some a =>
      obtain ⟨m, hm, hsome⟩ := (hlevel a).2 rfl
      rw [hnone m hm] at hsome
      cases hsome
  | some a =>
    obtain ⟨m, hm, hsome⟩ := List.exists_of_findSome?_eq_some hfound
    exact ((hlevel a).1 ⟨m, List.mem_reverse.1 hm, hsome⟩).symm

/-- The command is the one of its place, with its options among those that were taken there. -/
theorem command?_of_options {c : Command} (hc : c.Expressible) {opts : List (String × Value)}
    (hnodup : (opts.map Prod.fst).Nodup) (hsub : ∀ o ∈ c.options, o ∈ opts) :
    (⟨c.place, opts, c.positionals⟩ : Matched).command? = some c := by
  have hlookup : ∀ o ∈ c.options, opts.lookup o.1 = some o.2 := fun o ho =>
    lookup_of_mem hnodup (hsub o ho)
  cases c with
  | create row =>
    cases row <;>
      simp only [Command.options, CreateCommand.options, List.forall_mem_cons] at hlookup <;>
      simp [Matched.command?, Matched.text?, Matched.int?, Command.place, CreateCommand.place,
        Command.positionals, CreateCommand.positionals, hlookup]
  | ingest files =>
    have hfiles : (files.map Value.text).filterMap Matched.textOf? = files := by
      rw [List.filterMap_map, show Matched.textOf? ∘ Value.text = some from rfl,
        List.filterMap_some]
    show Matched.command? ⟨.ingest, opts, files.map Value.text⟩ = _
    simp only [Matched.command?, hfiles]
    cases files with
    | nil => exact absurd rfl hc.1
    | cons f fs => rfl
  | _ => rfl

/-- **Reading follows the words of a command down to its place**, where it finds what the command
needs; on the way it takes the global options where they stand. -/
theorem scan_written {c : Command} (hc : c.Expressible) {own : List (String × Value)}
    (hown : own.Perm c.options) {words : List String} :
    ∀ {p : Place} {gs : List (String × Value)} {front : List String},
      words.foldlM Place.child? p = some c.place → (∀ g ∈ gs, ∀ q : Place, q.Takes g) →
      ((own ++ gs).map Prod.fst).Nodup →
      Interleaved (words ++ own.map optionWord) (gs.map optionWord) front →
      ∃ levels, scan p (taken []) (front ++ c.tail) = .ok levels ∧ Found c (own ++ gs) levels := by
  -- along the words that are left, with the place and the global options that are left
  induction words with
  | nil =>
    intro p gs front hplace hgs hnodup hfront
    obtain rfl : p = c.place := Option.some.inj hplace
    -- no word is left: all that stands before the positionals are options, in some order
    obtain ⟨entries, rfl, hentries⟩ := Interleaved.of_map hfront
    have hperm := hentries.perm
    have hnames : (entries.map Prod.fst).Nodup := (hperm.map Prod.fst).nodup_iff.2 hnodup
    have htakes : ∀ o ∈ entries, c.place.Takes o := fun o ho => by
      rcases List.mem_append.1 (hperm.mem_iff.1 ho) with ho | ho
      · exact Command.takes_options hc o (hown.mem_iff.1 ho)
      · exact hgs o ho c.place
    have hcommand := command?_of_options hc hnames fun o ho =>
      hperm.mem_iff.2 (List.mem_append_left _ (hown.mem_iff.2 ho))
    refine ⟨_, ?_, (Found.single hcommand hnames).perm hperm.symm⟩
    rw [scan_first_options htakes hnames]
    exact scan_tail hc hcommand
  | cons word words ih =>
    intro p gs front hplace hgs hnodup hfront
    obtain ⟨child, hchild, hwords⟩ : ∃ child, p.child? word = some child ∧
        words.foldlM Place.child? child = some c.place := by
      rwa [List.foldlM_cons, Option.bind_eq_bind, Option.bind_eq_some_iff] at hplace
    -- only global options can stand before the next word
    obtain ⟨before, after, front, hsplit, rfl, hfront⟩ := hfront.cons_left
    obtain ⟨here, below, rfl, rfl, rfl⟩ := List.map_eq_append_iff.1 hsplit
    have hperm : (own ++ (here ++ below)).Perm (here ++ (own ++ below)) := by
      rw [← List.append_assoc, ← List.append_assoc]
      exact List.perm_append_comm.append_right below
    rw [(hperm.map Prod.fst).nodup_iff, List.map_append, List.nodup_append] at hnodup
    obtain ⟨levels, hscan, hfound⟩ := ih hwords
      (fun g hg => hgs g (List.mem_append_right _ hg)) hnodup.2.1 hfront
    refine ⟨⟨p, here, []⟩ :: levels, ?_, (hfound.cons hnodup.1).perm hperm⟩
    have hne : levels ≠ [] := by
      rintro rfl
      cases hfound.command
    have hhere : ∀ o ∈ here, p.Takes o := fun o ho => hgs o (List.mem_append_left _ ho) p
    rw [List.append_assoc, scan_first_options hhere hnodup.1]
    exact scan_word hchild here hscan hne

end CommandLine

/-! ## Invocations -/

namespace Invocation

/-- Paths are not empty, and the command can be written. -/
structure Expressible (i : Invocation) : Prop where
  config : i.config ≠ some ""
  db : i.db ≠ some ""
  command : i.command.Expressible

theorem mem_globals_config {i : Invocation} {path : String} :
    ("config", .text path) ∈ i.globals ↔ i.config = some path := by
  simp [globals]

theorem mem_globals_db {i : Invocation} {path : String} :
    ("db", .text path) ∈ i.globals ↔ i.db = some path := by
  simp [globals]

theorem mem_globals_format {i : Invocation} {f : OutputFormat} :
    ("format", .format f) ∈ i.globals ↔ i.format = some f := by
  simp [globals]

/-- Global options are taken at every place. -/
theorem takes_globals {i : Invocation} (h : i.Expressible) :
    ∀ g ∈ i.globals, ∀ p : Place, p.Takes g := by
  intro g hg p
  have hglobal : ∀ {o}, o ∈ Place.globalOptions → Fits o g → p.Takes g := fun ho hfits =>
    Place.takes_of_fits (List.mem_append_right _ ho) hfits
  simp only [globals, List.mem_append, List.mem_map, Option.mem_toList] at hg
  rcases hg with (⟨path, hpath, rfl⟩ | ⟨path, hpath, rfl⟩) | ⟨f, -, rfl⟩
  · exact hglobal List.mem_cons_self ⟨rfl, .path fun hempty => h.config (hempty ▸ hpath)⟩
  · exact hglobal (List.mem_cons_of_mem _ List.mem_cons_self)
      ⟨rfl, .path fun hempty => h.db (hempty ▸ hpath)⟩
  · exact hglobal (List.mem_cons_of_mem _ (List.mem_cons_of_mem _ List.mem_cons_self))
      ⟨rfl, .format f⟩

theorem names_globals (i : Invocation) :
    (i.globals.map Prod.fst).Sublist (Place.globalOptions.map Prod.fst) := by
  cases hconfig : i.config <;> cases hdb : i.db <;> cases hformat : i.format <;>
    simp only [globals, hconfig, hdb, hformat, Option.toList, List.map, List.nil_append,
      List.append_nil, List.cons_append] <;>
    decide

/-- No option of an invocation comes twice. -/
theorem names_nodup {i : Invocation} (h : i.command.Expressible) :
    ((i.command.options ++ i.globals).map Prod.fst).Nodup := by
  rw [List.map_append, names_of_fits (Command.fits_options h)]
  refine List.Nodup.sublist (i.names_globals.append_left _) ?_
  rw [← List.map_append]
  exact i.command.place.names_nodup

/-- An option with a global name is no option of the command. -/
theorem mem_given_iff {i : Invocation} (h : i.command.Expressible) {name : String} {v : Value}
    (hname : name ∈ Place.globalOptions.map Prod.fst) :
    (name, v) ∈ i.command.options ++ i.globals ↔ (name, v) ∈ i.globals := by
  rw [List.mem_append, or_iff_right]
  intro hmem
  have hown : name ∈ i.command.place.ownOptions.map Prod.fst := by
    rw [← names_of_fits (Command.fits_options h)]
    exact List.mem_map_of_mem hmem
  have hnodup := i.command.place.names_nodup
  rw [List.map_append] at hnodup
  exact List.disjoint_of_nodup_append hnodup hown hname

/-- Every invocation has arguments. -/
theorem exists_writtenAs (i : Invocation) : ∃ args, i.WrittenAs args :=
  ⟨_, _, _, _, .refl _, .refl _, .append _ _, rfl⟩

/-- **Every command can be expressed, and global options may stand anywhere**: the arguments of an
invocation are read as that invocation. -/
theorem parse_written {i : Invocation} (h : i.Expressible) :
    (∃ args, i.WrittenAs args) ∧ ∀ args, i.WrittenAs args → Invocation.parse args = .ok i := by
  refine ⟨i.exists_writtenAs, ?_⟩
  rintro _ ⟨own, gs, front, hown, hgs, hfront, rfl⟩
  have hperm : (own ++ gs).Perm (i.command.options ++ i.globals) := hown.append hgs
  obtain ⟨levels, hscan, hfound⟩ := scan_written h.command hown i.command.child?_words
    (fun g hg => takes_globals h g (hgs.mem_iff.1 hg))
    ((hperm.map Prod.fst).nodup_iff.2 (names_nodup h.command)) hfront
  have hgiven : ∀ {name v}, name ∈ Place.globalOptions.map Prod.fst →
      ((name, v) ∈ own ++ gs ↔ (name, v) ∈ i.globals) := fun hname =>
    hperm.mem_iff.trans (mem_given_iff h.command hname)
  have hconfig : innermost (fun m => m.text? "config") levels = i.config :=
    hfound.innermost_eq (fun _ _ => text?_eq_some_iff)
      fun _ => (hgiven (by decide)).trans mem_globals_config
  have hdb : innermost (fun m => m.text? "db") levels = i.db :=
    hfound.innermost_eq (fun _ _ => text?_eq_some_iff)
      fun _ => (hgiven (by decide)).trans mem_globals_db
  have hformat : innermost Matched.format? levels = i.format :=
    hfound.innermost_eq (fun _ _ => format?_eq_some_iff)
      fun _ => (hgiven (by decide)).trans mem_globals_format
  have hread : scan .root {} (front ++ i.command.tail) = .ok levels := hscan
  simp only [Invocation.parse, hread, Bind.bind, Except.bind, hfound.command, hconfig, hdb, hformat]
  rfl

/-- A host whose name looks like an option, with global options before the command, between its
words and after its own option. -/
theorem parse_written_host :
    let i : Invocation :=
      { config := some "=", db := some "-", format := some .json
        command := .create (.host "--arch=x" "") }
    let args :=
      ["--format=json", "create", "--db=-", "host", "--arch=", "--config==", "--", "--arch=x"]
    i.Expressible ∧ i.WrittenAs args ∧ Invocation.parse args = .ok i := by
  intro i args
  have hexpressible : i.Expressible := ⟨by decide, by decide, trivial⟩
  have hfront : Interleaved ["create", "host", "--arch="] ["--format=json", "--db=-", "--config=="]
      ["--format=json", "create", "--db=-", "host", "--arch=", "--config=="] :=
    .right (.left (.right (.left (.left (.right .nil)))))
  have hwritten : i.WrittenAs args :=
    ⟨[("arch", .text "")], [("format", .format .json), ("db", .text "-"), ("config", .text "=")], _,
      .refl _, by decide, hfront, by decide⟩
  exact ⟨hexpressible, hwritten, (parse_written hexpressible).2 args hwritten⟩

end Invocation
end FuzzLedger
