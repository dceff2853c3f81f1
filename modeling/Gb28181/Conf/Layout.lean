import Gb28181.Conf.IniText
import Gb28181.Conf.SipLocalConfig

/-!
# Loading a configuration file

A file with the settings of a service and a table of peer nodes, in the layout of the files of
the repository, and what `ReadConf` loads from it: in the place of the `i`-th node stands the
node whose number is the leading decimal digit of `i` (`ConfFile.readConf_eq`), since the scan for
a key stops at the first key that is a prefix of it.
-/

namespace Conf

open Lib

/-! ### The values of a configuration -/

/-- Printable ASCII without the blank, of a length that a buffer of 1024 bytes can hold. -/
structure Printable (s : Text) : Prop where
  ne_nil : s ≠ []
  length_le : s.length ≤ 1023
  mem : ∀ c ∈ s, 33 ≤ c.toNat ∧ c.toNat ≤ 126

abbrev Word := { s : Text // Printable s }

abbrev CInt := { z : ℤ // IsInt32 z }

/-- The row of a peer node; `last` is `auth` or `expires`. -/
structure PeerNode where
  id : Word
  ip : Word
  port : CInt
  poto : CInt
  last : CInt

/-- The settings that a file contains; the ports are such that `ReadConf` accepts them. -/
structure Settings where
  localIp : Word
  localPort : CInt
  sipId : Word
  sipIp : Word
  sipPort : CInt
  nodes : List PeerNode
  localPort_pos : 0 < localPort.1
  sipPort_pos : 0 < sipPort.1

/-! ### The layout -/

/-- The columns of the table of nodes. -/
def NodeKeys.columns (keys : NodeKeys) : List (Text × (PeerNode → Text)) :=
  [(keys.id, fun n => n.id), (keys.ip, fun n => n.ip), (keys.port, fun n => to_string n.port),
    (keys.poto, fun n => to_string n.poto), (keys.last, fun n => to_string n.last)]

/-- The settings of some nodes, numbered from `i` on. -/
def nodeSettings (keys : NodeKeys) : ℕ → List PeerNode → List (Text × Text)
  | _, [] => []
  | i, n :: ns =>
    keys.columns.map (fun col => (col.1 ++ to_string i, col.2 n)) ++ nodeSettings keys (i + 1) ns

/-- The settings of the section `localserver`. -/
def localSettings (s : Settings) : List (Text × Text) :=
  [(keyLocalIp, s.localIp), (keyLocalPort, to_string s.localPort)]

/-- The settings of the section `sipserver`. -/
def sipSettings (keys : NodeKeys) (s : Settings) : List (Text × Text) :=
  [(keySipId, (s.sipId : Text)), (keySipIp, s.sipIp), (keySipPort, to_string s.sipPort),
    (keys.num, to_string s.nodes.length)] ++ nodeSettings keys 1 s.nodes

/-- The lines of a configuration file, without empty lines. -/
def layout (keys : NodeKeys) (s : Settings) : List IniLine :=
  .header localSection :: (localSettings s).map (fun p => .setting p.1 p.2) ++
    .header sipSection :: (sipSettings keys s).map (fun p => .setting p.1 p.2)

/-- A configuration file in this layout: empty lines, blanks and line endings are free, and it
fits in the buffer of `ConfReader`. -/
structure ConfFile (keys : NodeKeys) where
  settings : Settings
  written : List Written
  lines_eq : (written.map (·.line)).filter (· != .empty) = layout keys settings
  ended : written.Pairwise fun w _ => w.lineEnd ≠ .eof
  length_le : (render written).length ≤ 10239

/-- The text of the file. -/
def ConfFile.text {keys : NodeKeys} (f : ConfFile keys) : Text := render f.written

/-- A line without blanks at its end, ended by a LF. -/
def Written.ofLine (l : IniLine) : Written where
  line := l
  before := ⟨[' '], by decide⟩
  after := ⟨[' '], by decide⟩
  trailing := ⟨[], by decide⟩
  lineEnd := .lf

lemma layout_ne_empty {keys : NodeKeys} {s : Settings} {l : IniLine} (hl : l ∈ layout keys s) :
    l ≠ .empty := by
  simp only [layout, List.mem_append, List.mem_cons, List.mem_map] at hl
  rcases hl with (rfl | ⟨p, -, rfl⟩) | rfl | ⟨p, -, rfl⟩ <;> simp

/-- The file that has nothing but the lines of the layout. -/
def ConfFile.ofLayout (keys : NodeKeys) (s : Settings)
    (h : (render ((layout keys s).map Written.ofLine)).length ≤ 10239) : ConfFile keys where
  settings := s
  written := (layout keys s).map Written.ofLine
  lines_eq := by
    have hline : ((layout keys s).map Written.ofLine).map (·.line) = layout keys s := by
      rw [List.map_map]
      exact List.map_id _
    rw [hline, List.filter_eq_self]
    exact fun l hl => by simpa using layout_ne_empty hl
  ended := by
    refine List.pairwise_map.2 (List.pairwise_of_forall fun l l' => ?_)
    simp [Written.ofLine]
  length_le := h

/-! ### Keys that do not get into each other's way -/

/-- Neither key is a prefix of the other, up to case. -/
def Apart (k k' : Text) : Prop := ¬ fold k <+: fold k' ∧ ¬ fold k' <+: fold k

instance (k k' : Text) : Decidable (Apart k k') := inferInstanceAs (Decidable (_ ∧ _))

lemma Apart.symm {k k' : Text} (h : Apart k k') : Apart k' k := ⟨h.2, h.1⟩

/-- Whatever is appended to them. -/
lemma Apart.not_begins {k k' : Text} (h : Apart k k') (x y : Text) :
    ¬ fold (k ++ x) <+: fold (k' ++ y) := by
  intro hpre
  have h₁ : fold k <+: fold (k' ++ y) :=
    (fold_append k x ▸ List.prefix_append _ _).trans hpre
  have h₂ : fold k' <+: fold (k' ++ y) := fold_append k' y ▸ List.prefix_append _ _
  rcases List.prefix_or_prefix_of_prefix h₁ h₂ with h' | h'
  · exact h.1 h'
  · exact h.2 h'

/-- The keys of the section `sipserver`; those of the nodes without their numbers. -/
def NodeKeys.all (keys : NodeKeys) : List Text :=
  [keySipId, keySipIp, keySipPort, keys.num, keys.id, keys.ip, keys.port, keys.poto, keys.last]

/-- A character that may stand in a key. -/
def keyChar (c : Char) : Bool :=
  (decide ('a' ≤ c) && decide (c ≤ 'z')) || c == '_' || c.isDigit || c == '-'

/-- Names of keys that read back and are told apart. -/
structure NodeKeys.WellNamed (keys : NodeKeys) : Prop where
  ne_nil : ∀ k ∈ keys.all, k ≠ []
  mem : ∀ k ∈ keys.all, ∀ c ∈ k, keyChar c = true
  apart : keys.all.Pairwise Apart

lemma wellNamed_subNodeKeys : subNodeKeys.WellNamed := ⟨by decide, by decide, by decide⟩

lemma wellNamed_supNodeKeys : supNodeKeys.WellNamed := ⟨by decide, by decide, by decide⟩

/-! ### The layout reads back -/

lemma keyChar_range {c : Char} (h : keyChar c = true) : 45 ≤ c.toNat ∧ c.toNat ≤ 122 := by
  simp only [keyChar, Bool.or_eq_true, Bool.and_eq_true, decide_eq_true_eq, beq_iff_eq] at h
  rcases h with ((⟨h₁, h₂⟩ | rfl) | h) | rfl
  · exact ⟨le_trans (by decide) (UInt32.le_iff_toNat_le.1 h₁), UInt32.le_iff_toNat_le.1 h₂⟩
  · decide
  · have h₀ : '0'.toNat = 48 := rfl
    have h₉ : '9'.toNat = 57 := rfl
    have := Char.isDigit_iff_toNat.1 h
    omega
  · decide

lemma plain_of_le {c : Char} (h : 33 ≤ c.toNat) : plain c = true := by
  have hblank : c ≠ ' ' := by
    rintro rfl
    exact absurd h (by decide)
  have hnul : c ≠ nul := by
    rintro rfl
    exact absurd h (by decide)
  simp only [plain, isspace, Bool.and_eq_true, Bool.not_eq_true', Bool.or_eq_false_iff,
    beq_eq_false_iff_ne, Bool.and_eq_false_iff, decide_eq_false_iff_not, bne_iff_ne]
  exact ⟨⟨hblank, Or.inr (by omega)⟩, hnul⟩

lemma keyChar_wellFormed {c : Char} (h : keyChar c = true) :
    plain c = true ∧ c ≠ '=' ∧ c ≠ '[' ∧ c ≠ '#' := by
  have hrange := keyChar_range h
  refine ⟨plain_of_le (by omega), ?_, ?_, ?_⟩ <;> rintro rfl <;> exact absurd h (by decide)

lemma keyChar_of_mem_to_string {z : ℤ} {c : Char} (h : c ∈ to_string z) : keyChar c = true := by
  rcases mem_to_string h with rfl | h
  · decide
  · simp [keyChar, h]

/-- A setting that reads back and stays in ASCII. -/
structure Sound (p : Text × Text) : Prop where
  key_ne_nil : p.1 ≠ []
  key : ∀ c ∈ p.1, keyChar c = true
  value_ne_nil : p.2 ≠ []
  value : ∀ c ∈ p.2, 33 ≤ c.toNat ∧ c.toNat ≤ 126

lemma Sound.wellFormed {p : Text × Text} (h : Sound p) : (IniLine.setting p.1 p.2).WellFormed :=
  ⟨h.key_ne_nil, h.value_ne_nil, fun c hc => keyChar_wellFormed (h.key c hc),
    fun c hc => plain_of_le (h.value c hc).1⟩

lemma sound_word {k : Text} (hk : k ≠ []) (hk' : ∀ c ∈ k, keyChar c = true) (w : Word) :
    Sound (k, (w : Text)) :=
  ⟨hk, hk', w.2.ne_nil, w.2.mem⟩

lemma sound_int {k : Text} (hk : k ≠ []) (hk' : ∀ c ∈ k, keyChar c = true) (z : ℤ) :
    Sound (k, to_string z) := by
  refine ⟨hk, hk', to_string_ne_nil z, fun c hc => ?_⟩
  have := keyChar_range (keyChar_of_mem_to_string hc)
  omega

variable {keys : NodeKeys} (hkeys : keys.WellNamed)

include hkeys

/-- The name of a column with a number. -/
lemma NodeKeys.WellNamed.numbered {k : Text} (hk : k ∈ keys.all) (i : ℕ) :
    k ++ to_string i ≠ [] ∧ ∀ c ∈ k ++ to_string i, keyChar c = true := by
  refine ⟨by simp [hkeys.ne_nil _ hk], fun c hc => ?_⟩
  rcases List.mem_append.1 hc with hc | hc
  · exact hkeys.mem _ hk c hc
  · exact keyChar_of_mem_to_string hc

lemma sound_columns {col : Text × (PeerNode → Text)} (hcol : col ∈ keys.columns) (n : PeerNode)
    (i : ℕ) : Sound (col.1 ++ to_string i, col.2 n) := by
  have hall : col.1 ∈ keys.all := by
    simp only [NodeKeys.columns, List.mem_cons, List.not_mem_nil, or_false] at hcol
    rcases hcol with rfl | rfl | rfl | rfl | rfl <;> simp [NodeKeys.all]
  obtain ⟨hne, hmem⟩ := hkeys.numbered hall i
  simp only [NodeKeys.columns, List.mem_cons, List.not_mem_nil, or_false] at hcol
  rcases hcol with rfl | rfl | rfl | rfl | rfl
  · exact sound_word hne hmem n.id
  · exact sound_word hne hmem n.ip
  · exact sound_int hne hmem n.port
  · exact sound_int hne hmem n.poto
  · exact sound_int hne hmem n.last

lemma sound_nodeSettings {p : Text × Text} {i : ℕ} {ns : List PeerNode}
    (hp : p ∈ nodeSettings keys i ns) : Sound p := by
  induction ns generalizing i with
  | nil => simp [nodeSettings] at hp
  | cons n ns ih =>
    rw [nodeSettings, List.mem_append, List.mem_map] at hp
    rcases hp with ⟨col, hcol, rfl⟩ | hp
    · exact sound_columns hkeys hcol n i
    · exact ih hp

lemma sound_sipSettings {s : Settings} {p : Text × Text} (hp : p ∈ sipSettings keys s) :
    Sound p := by
  simp only [sipSettings, List.mem_append, List.mem_cons, List.not_mem_nil, or_false] at hp
  rcases hp with (rfl | rfl | rfl | rfl) | hp
  · exact sound_word (by decide) (by decide) s.sipId
  · exact sound_word (by decide) (by decide) s.sipIp
  · exact sound_int (by decide) (by decide) s.sipPort
  · have hnum : keys.num ∈ keys.all := by simp [NodeKeys.all]
    exact sound_int (hkeys.ne_nil _ hnum) (hkeys.mem _ hnum) _
  · exact sound_nodeSettings hkeys hp

omit hkeys in
lemma sound_localSettings {s : Settings} {p : Text × Text} (hp : p ∈ localSettings s) :
    Sound p := by
  simp only [localSettings, List.mem_cons, List.not_mem_nil, or_false] at hp
  rcases hp with rfl | rfl
  · exact sound_word (by decide) (by decide) s.localIp
  · exact sound_int (by decide) (by decide) s.localPort

/-- A line of a configuration file is empty, a header or a sound setting. -/
lemma ConfFile.line_cases (f : ConfFile keys) {w : Written} (hw : w ∈ f.written) :
    w.line = .empty ∨ w.line = .header localSection ∨ w.line = .header sipSection ∨
      ∃ p, Sound p ∧ w.line = .setting p.1 p.2 := by
  by_cases hempty : w.line = .empty
  · exact Or.inl hempty
  have hmem : w.line ∈ layout keys f.settings := by
    rw [← f.lines_eq, List.mem_filter]
    exact ⟨List.mem_map_of_mem hw, by simpa using hempty⟩
  simp only [layout, List.mem_append, List.mem_cons, List.mem_map] at hmem
  rcases hmem with (h | ⟨p, hp, h⟩) | h | ⟨p, hp, h⟩
  · exact Or.inr (Or.inl h)
  · exact Or.inr (Or.inr (Or.inr ⟨p, sound_localSettings hp, h.symm⟩))
  · exact Or.inr (Or.inr (Or.inl h))
  · exact Or.inr (Or.inr (Or.inr ⟨p, sound_sipSettings hkeys hp, h.symm⟩))

lemma ConfFile.wellWritten (f : ConfFile keys) : WellWritten f.written := by
  refine ⟨fun w hw => ?_, f.ended⟩
  rcases f.line_cases hkeys hw with h | h | h | ⟨p, hp, h⟩ <;> rw [h]
  · trivial
  · show ∀ c ∈ localSection, plain c = true ∧ c ≠ ']'
    decide
  · show ∀ c ∈ sipSection, plain c = true ∧ c ≠ ']'
    decide
  · exact hp.wellFormed

/-- A configuration file contains no byte 0xFF. -/
lemma ConfFile.eofChar_notMem (f : ConfFile keys) : eofChar ∉ f.text := by
  intro hmem
  rw [ConfFile.text, render, List.mem_flatMap] at hmem
  obtain ⟨w, hw, hmem⟩ := hmem
  have hend : eofChar ∉ w.lineEnd.text := by cases w.lineEnd <;> decide
  have hblanks : ∀ b : Blanks, eofChar ∉ (b : Text) := fun b h => absurd (b.2 _ h) (by decide)
  have htext : eofChar ∈ w.text := (List.mem_append.1 hmem).resolve_right hend
  rcases f.line_cases hkeys hw with h | h | h | ⟨p, hp, h⟩ <;> rw [Written.text, h] at htext
  · simp at htext
  · exact absurd htext (show eofChar ∉ '[' :: (localSection ++ [']']) by decide)
  · exact absurd htext (show eofChar ∉ '[' :: (sipSection ++ [']']) by decide)
  · simp only [List.mem_append, List.mem_cons] at htext
    rcases htext with (hk | hb) | heq | hb | hv | hb
    · exact absurd (hp.key _ hk) (by decide)
    · exact hblanks _ hb
    · exact absurd heq (by decide)
    · exact hblanks _ hb
    · exact absurd (hp.value _ hv) (by decide)
    · exact hblanks _ hb

omit hkeys

/-! ### What is found in the layout -/

variable {sec key v : Text}

/-- The setting that matches a key. -/
def findSetting (key : Text) (ps : List (Text × Text)) : Option Text :=
  (ps.find? fun p => decide (fold p.1 <+: fold key)).map Prod.snd

lemma findSetting_append (ps qs : List (Text × Text)) :
    findSetting key (ps ++ qs) = (findSetting key ps).or (findSetting key qs) := by
  simp only [findSetting, List.find?_append, Option.map_or]

lemma findSetting_cons (p : Text × Text) (ps : List (Text × Text)) :
    findSetting key (p :: ps) = if fold p.1 <+: fold key then some p.2 else findSetting key ps := by
  by_cases hp : fold p.1 <+: fold key <;> simp [findSetting, hp]

lemma findSetting_eq_none {ps : List (Text × Text)} (h : ∀ p ∈ ps, ¬ fold p.1 <+: fold key) :
    findSetting key ps = none := by
  rw [findSetting, List.find?_eq_none.2 (by simpa using h), Option.map_none]

lemma findValue_filter (b : Bool) (ls : List IniLine) :
    findValue sec key b (ls.filter (· != .empty)) = findValue sec key b ls := by
  induction ls generalizing b with
  | nil => rfl
  | cons l ls ih => cases l <;> simp [findValue, ih]

lemma findValue_settings (b : Bool) (ps : List (Text × Text)) (ls : List IniLine) :
    findValue sec key b (ps.map (fun p => .setting p.1 p.2) ++ ls) =
      if b then (findSetting key ps).or (findValue sec key b ls) else findValue sec key b ls := by
  induction ps with
  | nil => cases b <;> simp [findSetting]
  | cons p ps ih =>
    rw [List.map_cons, List.cons_append, findValue, ih]
    cases b with
    | false => simp
    | true => by_cases hp : fold p.1 <+: fold key <;> simp [findSetting, hp]

/-- In the section `localserver` the scan meets its settings only. -/
lemma findValue_localSection (s : Settings) (h : findSetting key (localSettings s) = some v) :
    findValue localSection key false (layout keys s) = some v := by
  have hsec : fold localSection <+: fold localSection := List.prefix_rfl
  rw [layout, List.cons_append, findValue, decide_eq_true hsec, findValue_settings, if_pos rfl, h,
    Option.some_or]

/-- In the section `sipserver` likewise. -/
lemma findValue_sipSection (s : Settings) (h : findSetting key (sipSettings keys s) = some v) :
    findValue sipSection key false (layout keys s) = some v := by
  have hlocal : ¬ fold localSection <+: fold sipSection := by decide
  have hsip : fold sipSection <+: fold sipSection := List.prefix_rfl
  rw [layout, List.cons_append, findValue, decide_eq_false hlocal, findValue_settings,
    if_neg Bool.false_ne_true, findValue, decide_eq_true hsip,
    ← List.append_nil (List.map _ (sipSettings keys s)), findValue_settings, if_pos rfl, h,
    Option.some_or]

/-! ### The numbered keys -/

lemma fold_of_isDigit {s : Text} (h : ∀ c ∈ s, c.isDigit = true) : fold s = s.map Char.toNat := by
  refine List.map_congr_left fun c hc => ?_
  have h₀ : '0'.toNat = 48 := rfl
  have h₉ : '9'.toNat = 57 := rfl
  have := Char.isDigit_iff_toNat.1 (h c hc)
  rw [tolower, if_neg (by omega)]

lemma fold_to_string_prefix_iff {i j : ℕ} :
    fold (to_string j) <+: fold (to_string i) ↔ Nat.toDigits 10 j <+: Nat.toDigits 10 i := by
  have hdigit : ∀ n, ∀ c ∈ Nat.toDigits 10 n, c.isDigit = true := fun n c hc =>
    isDigit_of_mem_toDigits hc
  rw [to_string_natCast, to_string_natCast, fold_of_isDigit (hdigit j), fold_of_isDigit (hdigit i)]
  exact List.prefix_map_iff_of_injective fun a b h => Char.toNat_inj.1 h

/-- Among rows of columns whose keys are apart, the one in the column of the key matches, if
its number is a prefix of the number of the key. -/
lemma findSetting_columns {α : Type*} {cols : List (Text × α)}
    (hapart : cols.Pairwise fun col col' => Apart col.1 col'.1) {col : Text × α}
    (hcol : col ∈ cols) (f : α → Text) (x y : Text) :
    findSetting (col.1 ++ y) (cols.map fun col => (col.1 ++ x, f col.2)) =
      if fold x <+: fold y then some (f col.2) else none := by
  induction cols with
  | nil => simp at hcol
  | cons c cols ih =>
    obtain ⟨hc, hcols⟩ := List.pairwise_cons.1 hapart
    rw [List.map_cons, findSetting_cons]
    rcases List.mem_cons.1 hcol with rfl | hcol
    · have hrest : findSetting (col.1 ++ y) (cols.map fun col => (col.1 ++ x, f col.2)) = none := by
        refine findSetting_eq_none fun p hp => ?_
        obtain ⟨c', hc', rfl⟩ := List.mem_map.1 hp
        exact (hc c' hc').symm.not_begins x y
      simp only [fold_append, List.prefix_append_right_inj, hrest]
    · rw [if_neg ((hc col hcol).not_begins x y)]
      exact ih hcols hcol

include hkeys

lemma columns_apart : keys.columns.Pairwise fun col col' => Apart col.1 col'.1 := by
  have h : (keys.columns.map Prod.fst).Pairwise Apart := hkeys.apart.drop (i := 4)
  exact List.pairwise_map.1 h

/-- The row of the node `j` matches a key of the node `i` if the number `j` is a prefix of `i`,
and then in the right column. -/
lemma findSetting_row {col : Text × (PeerNode → Text)} (hcol : col ∈ keys.columns) (n : PeerNode)
    (i j : ℕ) :
    findSetting (col.1 ++ to_string i)
        (keys.columns.map fun col => (col.1 ++ to_string j, col.2 n)) =
      if Nat.toDigits 10 j <+: Nat.toDigits 10 i then some (col.2 n) else none := by
  simp only [findSetting_columns (columns_apart hkeys) hcol (fun f => f n),
    fold_to_string_prefix_iff]

/-- The first number of a node that is a prefix of `i` is its leading digit. -/
lemma findSetting_nodeSettings {col : Text × (PeerNode → Text)} (hcol : col ∈ keys.columns)
    {i j : ℕ} {ns : List PeerNode} {n : PeerNode} (hj : j ≤ leadingDigit i)
    (hn : ns[leadingDigit i - j]? = some n) :
    findSetting (col.1 ++ to_string i) (nodeSettings keys j ns) = some (col.2 n) := by
  induction ns generalizing j with
  | nil => simp at hn
  | cons m ns ih =>
    have hdigit := leadingDigit_lt i
    rw [nodeSettings, findSetting_append, findSetting_row hkeys hcol]
    by_cases hji : j = leadingDigit i
    · obtain rfl : m = n := by simpa [hji] using hn
      rw [if_pos ((toDigits_prefix_iff (by omega)).2 hji), Option.some_or]
    · have hsub : leadingDigit i - j = leadingDigit i - (j + 1) + 1 := by omega
      rw [hsub, List.getElem?_cons_succ] at hn
      rw [if_neg (mt (toDigits_prefix_iff (by omega)).1 hji), Option.none_or]
      exact ih (by omega) hn

/-- The settings of the section before those of the nodes. -/
def ownSettings (keys : NodeKeys) (s : Settings) : List (Text × Text) :=
  [(keySipId, (s.sipId : Text)), (keySipIp, s.sipIp), (keySipPort, to_string s.sipPort),
    (keys.num, to_string s.nodes.length)]

lemma ownSettings_apart (s : Settings) :
    ((ownSettings keys s).Pairwise fun p p' => Apart p.1 p'.1) ∧
      ∀ p ∈ ownSettings keys s, ∀ col ∈ keys.columns, Apart p.1 col.1 := by
  have hall : keys.all = (ownSettings keys s).map Prod.fst ++ keys.columns.map Prod.fst := rfl
  have hpairs := hkeys.apart
  rw [hall, List.pairwise_append] at hpairs
  exact ⟨List.pairwise_map.1 hpairs.1, fun p hp col hcol =>
    hpairs.2.2 p.1 (List.mem_map_of_mem hp) col.1 (List.mem_map_of_mem hcol)⟩

lemma findSetting_own {s : Settings} {p : Text × Text} (hp : p ∈ ownSettings keys s) :
    findSetting p.1 (sipSettings keys s) = some p.2 := by
  have hcol := findSetting_columns (ownSettings_apart hkeys s).1 hp id [] []
  simp only [List.append_nil, id_eq, List.prefix_rfl, if_true] at hcol
  have happ : sipSettings keys s = ownSettings keys s ++ nodeSettings keys 1 s.nodes := rfl
  rw [happ, findSetting_append]
  simpa using congrArg (Option.or · _) hcol

lemma findSetting_node {s : Settings} {col : Text × (PeerNode → Text)} (hcol : col ∈ keys.columns)
    {i : ℕ} {n : PeerNode} (hi : 0 < i) (hn : s.nodes[leadingDigit i - 1]? = some n) :
    findSetting (col.1 ++ to_string i) (sipSettings keys s) = some (col.2 n) := by
  have hown : findSetting (col.1 ++ to_string i) (ownSettings keys s) = none := by
    refine findSetting_eq_none fun p hp => ?_
    have := ((ownSettings_apart hkeys s).2 p hp col hcol).not_begins [] (to_string i)
    rwa [List.append_nil] at this
  have happ : sipSettings keys s = ownSettings keys s ++ nodeSettings keys 1 s.nodes := rfl
  rw [happ, findSetting_append, hown, Option.none_or]
  exact findSetting_nodeSettings hkeys hcol (leadingDigit_pos hi) hn

omit hkeys

/-! ### What is loaded -/

section Load

variable {file : Option Text} {stack : StackBuf}

lemma strlenPos_of_mem {s : Text} (hne : s ≠ []) (h : ∀ c ∈ s, keyChar c = true) :
    strlenPos s = true ∧ nul ∉ s := by
  have hnul : nul ∉ s := fun hc => absurd (h nul hc) (by decide)
  obtain ⟨a, t, rfl⟩ := List.exists_cons_of_ne_nil hne
  have ha : a ≠ nul := fun h => hnul (by simp [h])
  exact ⟨by simp [strlenPos, ha], hnul⟩

/-- A word is read as it was written. -/
lemma readStr_of_lookup (hsec : strlenPos sec) (hkey : strlenPos key) (hv : Printable v)
    {b : Blanks} (h : lookup file sec key = .ok (some (v ++ (b : Text)))) :
    readStr file stack sec key = .ok v := by
  have hplain : ∀ c ∈ v, (!blank c && c != nul) = true := fun c hc => by
    have hc' := plain_of_le (hv.mem c hc).1
    simp [not_blank_of_plain hc', (plain_iff.1 hc').2]
  have hcut : cutBlank ((v ++ (b : Text)).take 1023) = v := by
    rw [cutBlank, List.take_append, List.take_of_length_le hv.length_le,
      List.takeWhile_append_of_pos hplain]
    have hb : ((b : Text).take (1023 - v.length)).takeWhile (fun c => !blank c && c != nul) =
        [] := by
      cases hb : (b : Text).take (1023 - v.length) with
      | nil => rfl
      | cons c t =>
        have hc : c ∈ (b : Text) := List.mem_of_mem_take (hb ▸ List.mem_cons_self ..)
        simp [b.2 c hc]
    rw [hb, List.append_nil]
  simp only [readStr_eq hsec hkey, h, ok_bind, hcut]

/-- An integer is read as it was written. -/
lemma readInt_of_lookup (hsec : strlenPos sec) (hkey : strlenPos key) {z : ℤ} (hz : IsInt32 z)
    {b : Blanks} (h : lookup file sec key = .ok (some (to_string z ++ (b : Text)))) :
    readInt file sec key = .ok z := by
  have hlen := length_to_string hz
  have htake : (to_string z ++ (b : Text)).take 31 =
      to_string z ++ (b : Text).take (31 - (to_string z).length) := by
    rw [List.take_append, List.take_of_length_le (by omega)]
  have hnul : ∀ c ∈ to_string z ++ (b : Text).take (31 - (to_string z).length),
      (c != nul) = true := by
    intro c hc
    rw [bne_iff_ne]
    rintro rfl
    rcases List.mem_append.1 hc with hc | hc
    · exact absurd (keyChar_of_mem_to_string hc) (by decide)
    · exact absurd (b.2 _ (List.mem_of_mem_take hc)) (by decide)
  have hatoi : atoi (((to_string z ++ (b : Text)).take 31).takeWhile (· != nul)) = z := by
    rw [htake, List.takeWhile_eq_self_iff.2 hnul]
    refine atoi_to_string hz fun c hc => ?_
    have hblank := b.2 c (List.mem_of_mem_take (List.mem_of_mem_head? hc))
    simp only [blank, Bool.or_eq_true, beq_iff_eq] at hblank
    rcases hblank with rfl | rfl <;> decide
  simp only [readInt_eq hsec hkey, h, Except.map, hatoi]

end Load

/-- The nodes that are loaded for a table: for the `i`-th one, that whose number is the leading
digit of `i`. -/
def loadedNodes (nodes : List PeerNode) : List PeerNode :=
  List.ofFn fun k : Fin nodes.length =>
    nodes.get ⟨leadingDigit (k + 1) - 1, by
      have := leadingDigit_le (k + 1)
      omega⟩

variable (hkeys : keys.WellNamed) (f : ConfFile keys) {stack : StackBuf}

include hkeys

/-- What the lines of the file say about a key is what the lookup yields. -/
lemma ConfFile.lookup_eq {v : Text} (hsec : strlenPos sec ∧ nul ∉ sec)
    (hkey : strlenPos key ∧ nul ∉ key)
    (h : findValue sec key false (layout keys f.settings) = some v) :
    ∃ b : Blanks, lookup (some f.text) sec key = .ok (some (v ++ (b : Text))) := by
  rw [← f.lines_eq, findValue_filter] at h
  have hsize : (render f.written).length < maxIniFileSize := Nat.lt_succ_of_le f.length_le
  exact lookup_render (f.wellWritten hkeys) hsec.1 hsec.2 hkey.1 hkey.2 (f.eofChar_notMem hkeys)
    hsize h

lemma ConfFile.readStr_eq {w : Word} (hsec : strlenPos sec ∧ nul ∉ sec)
    (hkey : strlenPos key ∧ nul ∉ key)
    (h : findValue sec key false (layout keys f.settings) = some (w : Text)) :
    readStr (some f.text) stack sec key = .ok w := by
  obtain ⟨b, hb⟩ := f.lookup_eq hkeys hsec hkey h
  exact readStr_of_lookup hsec.1 hkey.1 w.2 hb

lemma ConfFile.readInt_eq {z : ℤ} (hz : IsInt32 z) (hsec : strlenPos sec ∧ nul ∉ sec)
    (hkey : strlenPos key ∧ nul ∉ key)
    (h : findValue sec key false (layout keys f.settings) = some (to_string z)) :
    readInt (some f.text) sec key = .ok z := by
  obtain ⟨b, hb⟩ := f.lookup_eq hkeys hsec hkey h
  exact readInt_of_lookup hsec.1 hkey.1 hz hb

/-- The entry of the list that a node becomes. -/
def PeerNode.info {ν : Type} (info : Text → Text → ℤ → ℤ → ℤ → ν) (n : PeerNode) : ν :=
  info n.id n.ip n.port n.poto n.last

/-- The `i`-th node is loaded from the lines of the node whose number is the leading digit of
`i`. -/
lemma ConfFile.readNode_eq {ν : Type} (stack : Stacks) (info : Text → Text → ℤ → ℤ → ℤ → ν)
    {i : ℕ} {n : PeerNode} (hi : 0 < i) (hn : f.settings.nodes[leadingDigit i - 1]? = some n) :
    readNode (some f.text) stack keys info i = .ok (n.info info) := by
  have hsec := strlenPos_of_mem_fixedNames sipSection (by simp [fixedNames])
  have hfind : ∀ col ∈ keys.columns,
      findValue sipSection (col.1 ++ to_string i) false (layout keys f.settings) =
        some (col.2 n) := fun col hcol =>
    findValue_sipSection f.settings (findSetting_node hkeys hcol hi hn)
  have hkey : ∀ col ∈ keys.columns,
      strlenPos (col.1 ++ to_string i) ∧ nul ∉ col.1 ++ to_string i := fun col hcol =>
    strlenPos_of_mem (sound_columns hkeys hcol n i).key_ne_nil (sound_columns hkeys hcol n i).key
  simp only [NodeKeys.columns, List.forall_mem_cons, List.not_mem_nil, false_implies, forall_const,
    and_true] at hfind hkey
  obtain ⟨hid, hip, hport, hpoto, hlast⟩ := hfind
  obtain ⟨kid, kip, kport, kpoto, klast⟩ := hkey
  simp only [readNode, f.readStr_eq hkeys hsec kid hid, f.readStr_eq hkeys hsec kip hip,
    f.readInt_eq hkeys n.port.2 hsec kport hport, f.readInt_eq hkeys n.poto.2 hsec kpoto hpoto,
    f.readInt_eq hkeys n.last.2 hsec klast hlast, ok_bind, pure_eq_ok, PeerNode.info]

omit hkeys in
lemma readNodes_eq {ν : Type} {file : Option Text} {stack : Stacks}
    {info : Text → Text → ℤ → ℤ → ℤ → ν} {n i : ℕ} {g : Fin n → ν}
    (h : ∀ k : Fin n, readNode file stack keys info (i + k) = .ok (g k)) :
    readNodes file stack keys info n i = .ok (List.ofFn g) := by
  induction n generalizing i with
  | zero => rfl
  | succ n ih =>
    have hrest := ih (i := i + 1) (g := fun k => g k.succ) fun k => by
      have := h k.succ
      rwa [Fin.val_succ, Nat.add_comm k.1, ← Nat.add_assoc] at this
    rw [readNodes, show readNode file stack keys info i = .ok (g 0) from h 0, ok_bind, hrest,
      ok_bind, pure_eq_ok, List.ofFn_succ]

omit hkeys in
lemma length_filter_le_render (ws : List Written) :
    ((ws.map (·.line)).filter (· != .empty)).length ≤ (render ws).length := by
  induction ws with
  | nil => simp
  | cons w ws ih =>
    have htext : w.line ≠ .empty → 0 < w.text.length := by
      intro hw
      rw [Written.text]
      cases hline : w.line with
      | empty => exact absurd hline hw
      | header name => simp
      | setting key value =>
        simp only [List.length_append, List.length_cons]
        omega
    have hrender : (render (w :: ws)).length =
        w.text.length + w.lineEnd.text.length + (render ws).length := by
      simp [render, Nat.add_assoc]
    -- an empty line has an end alone
    by_cases hw : w.line = .empty
    · simp only [List.map_cons, List.filter_cons, hw, bne_self_eq_false, Bool.false_eq_true,
        if_false]
      omega
    · have hne : (w.line != .empty) = true := by simpa using hw
      have := htext hw
      simp only [List.map_cons, List.filter_cons, hne, if_true, List.length_cons]
      omega

omit hkeys in
lemma length_nodeSettings (keys : NodeKeys) (i : ℕ) (ns : List PeerNode) :
    ns.length ≤ (nodeSettings keys i ns).length := by
  induction ns generalizing i with
  | nil => simp
  | cons n ns ih =>
    have := ih (i + 1)
    simp only [nodeSettings, List.length_append, List.length_map, List.length_cons,
      NodeKeys.columns, List.length_nil]
    omega

omit hkeys in
/-- There are fewer nodes than bytes. -/
lemma ConfFile.length_nodes_le : f.settings.nodes.length ≤ 10239 := by
  have hbytes := (length_filter_le_render f.written).trans f.length_le
  rw [f.lines_eq] at hbytes
  have hnodes := length_nodeSettings keys 1 f.settings.nodes
  simp only [layout, sipSettings, List.length_append, List.length_cons, List.length_map] at hbytes
  omega

omit hkeys in
/-- The bound of the loop of `ReadConf` does not overflow. -/
lemma ConfFile.count_eq :
    IsInt32 f.settings.nodes.length ∧
      (wrap32 ((f.settings.nodes.length : ℤ) + 1) - 1).toNat = f.settings.nodes.length := by
  have hlen := f.length_nodes_le
  rw [IsInt32, wrap32_of_isInt32 (by rw [IsInt32]; omega)]
  omega

/-- The table of nodes that `ReadConf` loads. -/
lemma ConfFile.readNodes_eq {ν : Type} (stack : Stacks) (info : Text → Text → ℤ → ℤ → ℤ → ν) :
    readNodes (some f.text) stack keys info f.settings.nodes.length 1 =
      .ok ((loadedNodes f.settings.nodes).map (PeerNode.info info)) := by
  rw [loadedNodes, List.map_ofFn]
  refine Conf.readNodes_eq fun k => f.readNode_eq hkeys stack info (by omega) ?_
  rw [Nat.add_comm 1 k.1]
  simp

omit hkeys in
/-- The settings of the local section. -/
lemma ConfFile.findSetting_local :
    findSetting keyLocalIp (localSettings f.settings) = some (f.settings.localIp : Text) ∧
      findSetting keyLocalPort (localSettings f.settings) =
        some (to_string f.settings.localPort) := by
  have hapart : ¬ fold keyLocalIp <+: fold keyLocalPort := by decide
  constructor
  · rw [localSettings, findSetting_cons, if_pos List.prefix_rfl]
  · rw [localSettings, findSetting_cons, if_neg hapart, findSetting_cons, if_pos List.prefix_rfl]

/-- What `ReadConf` loads from a configuration file. -/
theorem ConfFile.readConf_eq {ν : Type} (stack : Stacks) (info : Text → Text → ℤ → ℤ → ℤ → ν) :
    readConf (some f.text) stack keys info =
      .ok (some ⟨f.settings.localIp, f.settings.localPort, f.settings.sipId, f.settings.sipIp,
        f.settings.sipPort, (loadedNodes f.settings.nodes).map (PeerNode.info info)⟩) := by
  have hnames := strlenPos_of_mem_fixedNames
  simp only [fixedNames, List.forall_mem_cons] at hnames
  obtain ⟨hlocal, hsip, kLocalIp, kLocalPort, kSipId, kSipIp, kSipPort, -⟩ := hnames
  have hmem : keys.num ∈ keys.all := by simp [NodeKeys.all]
  have hnum : strlenPos keys.num ∧ nul ∉ keys.num :=
    strlenPos_of_mem (hkeys.ne_nil _ hmem) (hkeys.mem _ hmem)
  obtain ⟨hlocalIp, hlocalPort⟩ := f.findSetting_local
  obtain ⟨hint, hcount⟩ := f.count_eq
  -- what the section of the service says
  have hown : ∀ p ∈ ownSettings keys f.settings,
      findValue sipSection p.1 false (layout keys f.settings) = some p.2 := fun p hp =>
    findValue_sipSection f.settings (findSetting_own hkeys hp)
  simp only [ownSettings, List.forall_mem_cons, List.not_mem_nil, false_implies, forall_const,
    and_true] at hown
  obtain ⟨hsipId, hsipIp, hsipPort, hnumber⟩ := hown
  -- what the reads return
  have hnum' : readInt (some f.text) sipSection keys.num = .ok f.settings.nodes.length :=
    f.readInt_eq hkeys hint hsip hnum hnumber
  have hIp : readStr (some f.text) (stack localSection keyLocalIp) localSection keyLocalIp =
      .ok f.settings.localIp :=
    f.readStr_eq hkeys hlocal kLocalIp (findValue_localSection f.settings hlocalIp)
  have hPort : readInt (some f.text) localSection keyLocalPort = .ok f.settings.localPort :=
    f.readInt_eq hkeys f.settings.localPort.2 hlocal kLocalPort
      (findValue_localSection f.settings hlocalPort)
  have hId : readStr (some f.text) (stack sipSection keySipId) sipSection keySipId =
      .ok f.settings.sipId := f.readStr_eq hkeys hsip kSipId hsipId
  have hIp' : readStr (some f.text) (stack sipSection keySipIp) sipSection keySipIp =
      .ok f.settings.sipIp := f.readStr_eq hkeys hsip kSipIp hsipIp
  have hPort' : readInt (some f.text) sipSection keySipPort = .ok f.settings.sipPort :=
    f.readInt_eq hkeys f.settings.sipPort.2 hsip kSipPort hsipPort
  have hne : ∀ w : Word, (w : Text).isEmpty = false := fun w =>
    List.isEmpty_eq_false_iff.2 w.2.ne_nil
  rw [readConf, hIp, ok_bind, if_neg (by simp [hne]), hPort, ok_bind,
    if_neg (Int.not_le.2 f.settings.localPort_pos), hId, ok_bind, if_neg (by simp [hne]), hIp',
    ok_bind, if_neg (by simp [hne]), hPort', ok_bind,
    if_neg (Int.not_le.2 f.settings.sipPort_pos), hnum', ok_bind, hcount,
    f.readNodes_eq hkeys stack info, ok_bind,
    pure_eq_ok]

end Conf
