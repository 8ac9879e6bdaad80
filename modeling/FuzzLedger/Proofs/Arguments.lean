import FuzzLedger.CommandLine.Written
import FuzzLedger.Proofs.JsonRecord

/-!
# What the reader does with each argument

`CommandLine.scan` reads arguments from left to right.  Each section here takes one sort of argument
and says what reading goes on with:

* `ValueKind.read_word` — a value is read from its word, whatever the word looks like.
* `scan_options` — options in the form `--name=value` are taken one by one, at any place.
* `scan_word` — at the word of a command the rest is read at the place below.
* `scan_dashes`, `scan_positionals`, `scan_ingest` — behind `--` every word is a positional.
* `finish_of_command` — the arguments may end where a command has all that it needs.
-/

set_option autoImplicit false

namespace FuzzLedger

namespace CommandLine

/-! ## Values -/

theorem readDigits_toDigits (n : Nat) : readDigits (Nat.toDigits 10 n) = some n := by
  have hsome : (Nat.toDigits 10 n).isEmpty = false := by
    rw [List.isEmpty_eq_false_iff]
    exact Nat.toDigits_ne_nil
  have hall : (Nat.toDigits 10 n).all (fun c => '0' ≤ c && c ≤ '9') = true :=
    List.all_eq_true.2 fun c hc => by simpa [Json.isDigit] using Json.isDigit_of_mem_toDigits hc
  have hvalue : (Nat.toDigits 10 n).foldl (fun n c => 10 * n + (c.toNat - 48)) 0 = n :=
    Nat.ofDigitChars_toDigits (by decide) (by decide)
  simp only [readDigits, hsome, hall, hvalue, Bool.false_eq_true, Bool.not_true, or_self, if_false]

theorem readInt_toString (n : Int) : readInt (toString n).toList = some n := by
  cases n with
  | ofNat m =>
    have hchars : (toString (Int.ofNat m)).toList = Nat.toDigits 10 m := Nat.toList_repr
    rw [hchars]
    unfold readInt
    -- a digit is no sign
    split
    · rename_i hsign
      exact absurd (Json.isDigit_of_mem_toDigits (hsign ▸ List.mem_cons_self)) (by decide)
    · rename_i hsign
      exact absurd (Json.isDigit_of_mem_toDigits (hsign ▸ List.mem_cons_self)) (by decide)
    · rw [readDigits_toDigits]
      rfl
  | negSucc m =>
    have hchars : (toString (Int.negSucc m)).toList = '-' :: Nat.toDigits 10 (m + 1) := by
      show ("-" ++ (m + 1).repr).toList = _
      rw [String.toList_append, Nat.toList_repr]
      rfl
    rw [hchars, readInt, readDigits_toDigits]
    rfl

/-- A value is one of a kind. -/
inductive ValueKind.Admits : ValueKind → Value → Prop where
  | text (s : String) : Admits .text (.text s)
  | path {s : String} : s ≠ "" → Admits .path (.text s)
  | int64 {n : Int} : Json.IsId n → Admits .int64 (.int n)
  | int32 (n : Int32) : Admits .int32 (.int n.toInt)
  | format (f : OutputFormat) : Admits .format (.format f)
  | entity (e : Entity) : Admits .entity (.entity e)

theorem readRange_toString {low high n : Int} (hlow : low ≤ n) (hhigh : n ≤ high) :
    readRange low high (toString n) = .ok (.int n) := by
  simp only [readRange, readInt_toString, if_pos (And.intro hlow hhigh)]

/-- **A value is read from its word.** -/
theorem ValueKind.read_word {kind : ValueKind} {v : Value} (h : kind.Admits v) :
    kind.read v.word = .ok v := by
  cases h with
  | text s => rfl
  | @path s hs =>
    have hfull : s.isEmpty = false := by simpa using hs
    simp only [ValueKind.read, Value.word, hfull, Bool.false_eq_true, if_false]
  | int64 hid => exact readRange_toString hid.1 hid.2
  | int32 n => exact readRange_toString n.minValue_le_toInt n.toInt_le
  | format f => cases f <;> rfl
  | entity e => cases e <;> rfl

theorem mapM_read_word {kind : ValueKind} : ∀ {values : List Value},
    (∀ v ∈ values, kind.Admits v) → (values.map Value.word).mapM kind.read = .ok values
  | [], _ => rfl
  | v :: values, h => by
    have hrest := mapM_read_word fun w hw => h w (List.mem_cons_of_mem _ hw)
    rw [List.map_cons, List.mapM_cons, ValueKind.read_word (h v List.mem_cons_self), hrest]
    rfl

/-! ## Options -/

/-- A place knows an option, and the value is of its kind. -/
def Place.Takes (p : Place) (o : String × Value) : Prop :=
  ∃ kind, p.optionKind? o.1 = some kind ∧ kind.Admits o.2

/-- A value for an option that a place has. -/
def Fits (o : String × ValueKind) (q : String × Value) : Prop := q.1 = o.1 ∧ o.2.Admits q.2

theorem names_of_fits {os : List (String × ValueKind)} {qs : List (String × Value)}
    (h : List.Forall₂ Fits os qs) : qs.map Prod.fst = os.map Prod.fst := by
  induction h with
  | nil => rfl
  | cons hfits _ ih => rw [List.map_cons, List.map_cons, ih, hfits.1]

/-- If no name comes twice, the first entry of a name is the only one. -/
theorem lookup_of_mem {β : Type} {entries : List (String × β)}
    (hnodup : (entries.map Prod.fst).Nodup) {name : String} {b : β} (h : (name, b) ∈ entries) :
    entries.lookup name = some b := by
  obtain ⟨before, after, rfl⟩ := List.append_of_mem h
  refine List.lookup_eq_some_iff.2 ⟨before, after, rfl, fun o ho => ?_⟩
  rw [bne_iff_ne]
  rintro rfl
  rw [List.map_append] at hnodup
  exact List.disjoint_of_nodup_append hnodup (List.mem_map_of_mem ho) List.mem_cons_self

theorem mem_of_lookup {β : Type} {entries : List (String × β)} {name : String} {b : β}
    (h : entries.lookup name = some b) : (name, b) ∈ entries := by
  obtain ⟨before, after, rfl, -⟩ := List.lookup_eq_some_iff.1 h
  exact List.mem_append_right _ List.mem_cons_self

theorem lookup_of_not_mem {β : Type} {entries : List (String × β)} {name : String}
    (h : name ∉ entries.map Prod.fst) : entries.lookup name = none := by
  refine List.lookup_eq_none_iff.2 fun o ho => ?_
  rw [bne_iff_ne]
  rintro rfl
  exact h (List.mem_map_of_mem ho)

theorem Place.names_nodup (p : Place) : ((p.ownOptions ++ globalOptions).map Prod.fst).Nodup := by
  cases p <;> decide

theorem Place.takes_of_fits {p : Place} {o : String × ValueKind} {q : String × Value}
    (ho : o ∈ p.ownOptions ++ globalOptions) (h : Fits o q) : p.Takes q :=
  ⟨o.2, lookup_of_mem p.names_nodup (h.1 ▸ ho), h.2⟩

/-- Names of options have no sign in them that ends a name, and none is a request. -/
theorem Place.name_of_optionKind? {p : Place} {name : String} {kind : ValueKind}
    (h : p.optionKind? name = some kind) :
    '=' ∉ name.toList ∧ name ≠ "help" ∧ name ≠ "version" := by
  have hall : ∀ o ∈ p.ownOptions ++ globalOptions,
      '=' ∉ o.1.toList ∧ o.1 ≠ "help" ∧ o.1 ≠ "version" := by
    cases p <;> decide
  exact hall (name, kind) (mem_of_lookup h)

/-- No command begins like an option. -/
theorem Place.child?_of_dash {p : Place} {word : String} (h : word.toList.head? = some '-') :
    p.child? word = none := by
  have hall : ∀ name ∈ p.children.map Prod.fst, name.toList.head? ≠ some '-' := by
    cases p <;> decide
  exact lookup_of_not_mem fun hmem => hall word hmem h

/-- A word that begins like an option is an argument of the place. -/
theorem scan_of_dash (p : Place) (st : Progress) {word : String}
    (h : word.toList.head? = some '-') (rest : List String) :
    scan p st (word :: rest) = (do
      let st ← takeArgument p st word
      scan p st rest) := by
  have hchild : p.child? word = none := Place.child?_of_dash h
  have hhelp : (word == "help") = false := by
    rw [beq_eq_false_iff_ne]
    rintro rfl
    cases h
  rw [scan]
  simp only [hchild, hhelp, ite_self, Bool.and_false, Bool.false_eq_true, if_false]

theorem toList_optionWord (o : String × Value) :
    (optionWord o).toList = '-' :: '-' :: (o.1.toList ++ '=' :: o.2.word.toList) := by
  simp [optionWord, String.toList_append]

theorem longOption?_optionWord {o : String × Value} (h : '=' ∉ o.1.toList) :
    longOption? (optionWord o) = some (o.1, some o.2.word) := by
  have hname : ∀ c ∈ o.1.toList, decide (c ≠ '=') = true := fun c hc => by
    rw [decide_eq_true_eq]
    rintro rfl
    exact h hc
  simp only [longOption?, toList_optionWord, List.takeWhile_append_of_pos hname,
    List.dropWhile_append_of_pos hname]
  simp

/-- The options of a place that have been taken, with nothing still to be looked at. -/
def taken (opts : List (String × Value)) : Progress := { options := opts }

theorem takeOption_taken {opts : List (String × Value)} {name : String} {kind : ValueKind}
    {v : Value} (hfresh : name ∉ opts.map Prod.fst) (hv : kind.Admits v) :
    (taken opts).takeOption name kind (some v.word) = .ok (taken (opts ++ [(name, v)])) := by
  have hnone : opts.lookup name = none := lookup_of_not_mem hfresh
  simp only [Progress.takeOption, taken, Progress.settle, Bind.bind, Except.bind, hnone,
    Option.isSome_none, Bool.false_eq_true, if_false, ValueKind.read_word hv]
  rfl

theorem takeArgument_optionWord {p : Place} {o : String × Value} (htakes : p.Takes o)
    {opts : List (String × Value)} (hfresh : o.1 ∉ opts.map Prod.fst) :
    takeArgument p (taken opts) (optionWord o) = .ok (taken (opts ++ [o])) := by
  obtain ⟨kind, hkind, hv⟩ := htakes
  obtain ⟨hname, hhelp, hversion⟩ := Place.name_of_optionKind? hkind
  have hended : (taken opts).ended = false := rfl
  have hdashes : optionWord o ≠ "--" := fun heq => by
    have hchars := congrArg String.toList heq
    rw [toList_optionWord] at hchars
    simp at hchars
  have hrequest : request? p (o.1 == "help") (o.1 == "version") = none := by
    simp [request?, hhelp, hversion]
  simp only [takeArgument, hended, Bool.false_eq_true, if_false, if_neg hdashes,
    longOption?_optionWord hname, hrequest, hkind]
  exact takeOption_taken hfresh hv

/-- An option is taken where it is known. -/
theorem scan_option {p : Place} {o : String × Value} (htakes : p.Takes o)
    {opts : List (String × Value)} (hfresh : o.1 ∉ opts.map Prod.fst) (rest : List String) :
    scan p (taken opts) (optionWord o :: rest) = scan p (taken (opts ++ [o])) rest := by
  have hdash : (optionWord o).toList.head? = some '-' := by
    rw [toList_optionWord]
    rfl
  rw [scan_of_dash p _ hdash, takeArgument_optionWord htakes hfresh]
  rfl

/-- **Options are taken one by one**, if no name comes twice. -/
theorem scan_options {p : Place} {entries : List (String × Value)}
    (htakes : ∀ o ∈ entries, p.Takes o) {opts : List (String × Value)}
    (hnodup : ((opts ++ entries).map Prod.fst).Nodup) (rest : List String) :
    scan p (taken opts) (entries.map optionWord ++ rest) = scan p (taken (opts ++ entries)) rest := by
  induction entries generalizing opts with
  | nil => rw [List.map_nil, List.nil_append, List.append_nil]
  | cons o entries ih =>
    have hfresh : o.1 ∉ opts.map Prod.fst := fun hmem => by
      rw [List.map_append, List.map_cons] at hnodup
      exact List.disjoint_of_nodup_append hnodup hmem List.mem_cons_self
    have hsplit : opts ++ o :: entries = (opts ++ [o]) ++ entries := by simp
    rw [hsplit] at hnodup ⊢
    rw [List.map_cons, List.cons_append, scan_option (htakes o List.mem_cons_self) hfresh]
    exact ih (fun q hq => htakes q (List.mem_cons_of_mem _ hq)) hnodup

/-- All options of a place are taken. -/
theorem scan_first_options {p : Place} {entries : List (String × Value)}
    (htakes : ∀ o ∈ entries, p.Takes o) (hnodup : (entries.map Prod.fst).Nodup)
    (rest : List String) :
    scan p (taken []) (entries.map optionWord ++ rest) = scan p (taken entries) rest :=
  @scan_options p entries htakes [] hnodup rest

/-! ## Words of commands -/

theorem Place.hasChildren_of_child? {p c : Place} {word : String} (h : p.child? word = some c) :
    p.hasChildren = true := by
  obtain ⟨before, after, hsplit, -⟩ := List.lookup_eq_some_iff.1 h
  rw [Place.hasChildren, hsplit]
  cases before <;> rfl

/-- At the word of a command the reader descends, and comes back with what it found below. -/
theorem scan_word {p c : Place} {word : String} (h : p.child? word = some c)
    (opts : List (String × Value)) {rest : List String} {inner : List Matched}
    (hinner : scan c (taken []) rest = .ok inner) (hne : inner ≠ []) :
    scan p (taken opts) (word :: rest) = .ok (⟨p, opts, []⟩ :: inner) := by
  have hchildren := Place.hasChildren_of_child? h
  have hsome : inner.isEmpty = false := by simpa using hne
  rw [scan]
  simp only [taken, h, Bool.not_false, Bool.and_self, if_true]
  rw [show scan c {} rest = _ from hinner]
  simp only [Bind.bind, Except.bind, finish, Progress.settle, hchildren, hsome, Bool.not_false,
    if_true]
  rfl

/-! ## Positionals -/

/-- What is still to be looked at comes to the given options and positionals. -/
def Progress.Settles (st : Progress) (opts : List (String × Value)) (values : List Value) : Prop :=
  ∃ st', st.settle = .ok st' ∧ st'.options = opts ∧ st'.positionals = values ∧
    st'.ended = st.ended ∧ st'.begun = st.begun

theorem settles_taken (opts : List (String × Value)) : (taken opts).Settles opts [] :=
  ⟨_, rfl, rfl, rfl, rfl, rfl⟩

/-- Values of one kind that belong to a positional come to themselves. -/
theorem settles_pending {kind : ValueKind} {values : List Value} (h : ∀ v ∈ values, kind.Admits v)
    (st : Progress) :
    Progress.Settles { st with pending := some (.positional kind, values.map Value.word) }
      st.options (st.positionals ++ values) := by
  refine ⟨{ st with positionals := st.positionals ++ values, pending := none }, ?_, rfl, rfl, rfl,
    rfl⟩
  simp only [Progress.settle, mapM_read_word h]
  rfl

/-- At `--` the options end. -/
theorem scan_dashes (p : Place) (opts : List (String × Value)) (rest : List String) :
    scan p (taken opts) ("--" :: rest) = scan p { taken opts with ended := true } rest :=
  scan_of_dash p _ rfl rest

/-- A word behind `--` is a positional, whatever it looks like. -/
theorem scan_ended (p : Place) {st : Progress} (h : st.ended = true) (word : String)
    (rest : List String) :
    scan p st (word :: rest) = (do
      let st ← st.takePositional p word
      scan p st rest) := by
  rw [scan]
  simp only [h, Bool.not_true, Bool.false_and, Bool.false_eq_true, if_false, takeArgument, if_true]

/-- A further positional, at a place where none is repeated. -/
theorem takePositional_word {p : Place} (hsingle : p.repeats = false) {st : Progress}
    {opts : List (String × Value)} {values : List Value} (hst : st.Settles opts values)
    {kind : ValueKind} (hkind : p.positionals[st.begun]? = some kind) {v : Value}
    (hv : kind.Admits v) :
    ∃ st', st.takePositional p v.word = .ok st' ∧ st'.Settles opts (values ++ [v]) ∧
      st'.ended = st.ended ∧ st'.begun = st.begun + 1 := by
  obtain ⟨settled, hsettle, rfl, rfl, hended, hbegun⟩ := hst
  have hpending := settles_pending (List.forall_mem_singleton.2 hv)
    { settled with begun := settled.begun + 1 }
  refine ⟨_, ?_, hpending, hended, by rw [← hbegun]⟩
  simp only [Progress.takePositional, hsingle, Bool.false_eq_true, if_false, hkind, hsettle]
  rfl

/-- Positionals are taken one by one. -/
theorem scan_positionals {p : Place} (hsingle : p.repeats = false)
    {opts : List (String × Value)} {more : List Value} :
    ∀ {st : Progress} {values : List Value}, st.ended = true → st.Settles opts values →
      List.Forall₂ ValueKind.Admits (p.positionals.drop st.begun) more →
      ∃ st', scan p st (more.map Value.word) = finish p st' [] ∧
        st'.Settles opts (values ++ more) := by
  induction more with
  | nil =>
    intro st values _ hst _
    exact ⟨st, rfl, by rwa [List.append_nil]⟩
  | cons v more ih =>
    intro st values hended hst hadmits
    cases hkinds : p.positionals.drop st.begun with
    | nil =>
      rw [hkinds] at hadmits
      cases hadmits
    | cons kind kinds =>
      rw [hkinds] at hadmits
      obtain ⟨hv, hmore⟩ := List.forall₂_cons.1 hadmits
      have hkind : p.positionals[st.begun]? = some kind := by
        rw [← List.head?_drop, hkinds]
        rfl
      obtain ⟨st', htake, hst', hended', hbegun⟩ := takePositional_word hsingle hst hkind hv
      have hdrop : p.positionals.drop st'.begun = kinds := by
        rw [hbegun, ← List.drop_drop, hkinds]
        rfl
      obtain ⟨st'', hscan, hst''⟩ := ih (hended'.trans hended) hst' (hdrop ▸ hmore)
      refine ⟨st'', ?_, by rwa [List.append_assoc] at hst''⟩
      rw [List.map_cons, scan_ended p hended, htake]
      exact hscan

/-- Files are gathered until the end, to be looked at together. -/
theorem scan_files {st : Progress} (hended : st.ended = true) {words : List String}
    (hpending : st.pending = some (.positional .path, words)) (more : List String) :
    scan .ingest st more =
      finish .ingest { st with pending := some (.positional .path, words ++ more) } [] := by
  induction more generalizing st words with
  | nil =>
    rw [List.append_nil, ← hpending]
    rfl
  | cons word more ih =>
    have htake : st.takePositional .ingest word =
        .ok { st with pending := some (.positional .path, words ++ [word]) } := by
      simp only [Progress.takePositional, hpending]
      rfl
    have hrest := @ih { st with pending := some (.positional .path, words ++ [word]) } hended _ rfl
    rw [List.append_assoc] at hrest
    rw [scan_ended _ hended, htake]
    exact hrest

theorem map_word_text (words : List String) : (words.map Value.text).map Value.word = words := by
  rw [List.map_map, show Value.word ∘ Value.text = id from rfl, List.map_id]

/-- Files behind `--` are the positionals. -/
theorem scan_ingest (opts : List (String × Value)) {files : List String} (hne : files ≠ [])
    (hnames : ∀ f ∈ files, f ≠ "") :
    ∃ st', scan .ingest { taken opts with ended := true } ((files.map .text).map Value.word) =
        finish .ingest st' [] ∧ st'.Settles opts (files.map .text) := by
  rw [map_word_text]
  cases files with
  | nil => exact absurd rfl hne
  | cons f fs =>
    have hadmits : ∀ v ∈ (f :: fs).map Value.text, ValueKind.path.Admits v := by
      rintro _ hv
      obtain ⟨g, hg, rfl⟩ := List.mem_map.1 hv
      exact .path (hnames g hg)
    have hsettles := settles_pending hadmits { taken opts with ended := true, begun := 1 }
    rw [map_word_text] at hsettles
    refine ⟨_, ?_, hsettles⟩
    have htake : Progress.takePositional .ingest { taken opts with ended := true } f = .ok
        { taken opts with
          ended := true, begun := 1, pending := some (.positional .path, [f]) } := rfl
    rw [scan_ended _ rfl, htake]
    -- from the second file on there is something that files can join
    exact @scan_files { taken opts with
      ended := true, begun := 1, pending := some (.positional .path, [f]) } rfl _ rfl fs

/-- The end of the arguments, at the place of a command that has all that it needs. -/
theorem finish_of_command {p : Place} (hleaf : p.hasChildren = false) {st : Progress}
    {opts : List (String × Value)} {values : List Value} (hst : st.Settles opts values)
    {c : Command} (hcommand : (⟨p, opts, values⟩ : Matched).command? = some c) :
    finish p st [] = .ok [⟨p, opts, values⟩] := by
  obtain ⟨settled, hsettle, rfl, rfl, -, -⟩ := hst
  simp only [finish, hsettle, Bind.bind, Except.bind, hleaf, Bool.false_eq_true, if_false, hcommand,
    Option.isSome_some, if_true]
  rfl

end CommandLine
end FuzzLedger
