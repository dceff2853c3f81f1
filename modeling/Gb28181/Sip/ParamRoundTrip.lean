import Gb28181.Sip.Printer

/-!
# Parameters are read as they were written

The parser reads a list of parameters back from the text that is printed for it, whatever is done
with them: the loop over the parameters of a URI and the one over those of a header have the
same shape.
-/

namespace Sip.Wire

open Lib Lib.Scan

variable {ws : Bool} {p : Char → Bool} {others name value w s t : Text} {c : Char}

/-! ### Character sets -/

lemma isUpper_eq (c : Char) : c.isUpper = decide (c.val ≥ 'A'.val ∧ c.val ≤ 'Z'.val) := rfl

lemma isLower_eq (c : Char) : c.isLower = (decide (c.val ≥ 'a'.val) && decide (c.val ≤ 'z'.val)) :=
  rfl

lemma isAlpha_eq (c : Char) : c.isAlpha = (c.isUpper || c.isLower) := rfl

lemma isAlphanum_of_isHexDigit (h : c.isHexDigit = true) : c.isAlphanum = true := by
  simp only [Char.isHexDigit, Char.isAlphanum, isAlpha_eq, isUpper_eq, isLower_eq,
    Char.isDigit, Bool.or_eq_true, Bool.and_eq_true, decide_eq_true_eq, ge_iff_le,
    UInt32.le_iff_toNat_le] at h ⊢
  have hA : ('A' : Char).val.toNat = 65 := rfl
  have hF : ('F' : Char).val.toNat = 70 := rfl
  have ha : ('a' : Char).val.toNat = 97 := rfl
  have hf : ('f' : Char).val.toNat = 102 := rfl
  have h0 : ('0' : Char).val.toNat = 48 := rfl
  have h9 : ('9' : Char).val.toNat = 57 := rfl
  have hZ : ('Z' : Char).val.toNat = 90 := rfl
  have hz : ('z' : Char).val.toNat = 122 := rfl
  omega

lemma visible_of_isAlphanum (h : c.isAlphanum = true) : 32 < c.toNat := by
  simp only [Char.isAlphanum, isAlpha_eq, isUpper_eq, isLower_eq, Char.isDigit,
    Bool.or_eq_true, Bool.and_eq_true, decide_eq_true_eq, ge_iff_le, UInt32.le_iff_toNat_le] at h
  have hA : ('A' : Char).val.toNat = 65 := rfl
  have ha : ('a' : Char).val.toNat = 97 := rfl
  have h0 : ('0' : Char).val.toNat = 48 := rfl
  have hc : c.toNat = c.val.toNat := rfl
  omega

lemma toNat_lt_of_isAlphanum (h : c.isAlphanum = true) : c.toNat < 256 := by
  simp only [Char.isAlphanum, isAlpha_eq, isUpper_eq, isLower_eq, Char.isDigit, Bool.or_eq_true,
    Bool.and_eq_true, decide_eq_true_eq, ge_iff_le, UInt32.le_iff_toNat_le] at h
  have hZ : ('Z' : Char).val.toNat = 90 := rfl
  have hz : ('z' : Char).val.toNat = 122 := rfl
  have h9 : ('9' : Char).val.toNat = 57 := rfl
  have hc : c.toNat = c.val.toNat := rfl
  omega

lemma toNat_lt_of_spec (h : ∀ c ∈ others, c.toNat < 256) (hc : spec others c = true) :
    c.toNat < 256 := by
  rw [spec, Bool.or_eq_true, List.contains_iff_mem] at hc
  rcases hc with hc | hc
  · exact toNat_lt_of_isAlphanum hc
  · exact h c hc

lemma readable_spec (h : '%' ∈ others) : Percent.Readable (spec others) where
  percent := by
    rw [spec, List.contains_iff_mem.2 h, Bool.or_true]
  hex := fun c hc => by rw [spec, isAlphanum_of_isHexDigit hc, Bool.true_or]

/-- Whatever is in the set can be seen. -/
lemma visible_spec (h : ∀ c ∈ others, 32 < c.toNat) (hc : spec others c = true) : 32 < c.toNat := by
  rw [spec, Bool.or_eq_true] at hc
  rcases hc with hc | hc
  · exact visible_of_isAlphanum hc
  · exact h c (List.contains_iff_mem.1 hc)

/-- A set of characters in which names and values of parameters are written. -/
structure ParamSpec (p : Char → Bool) : Prop where
  readable : Percent.Readable p
  visible : ∀ c, p c = true → 32 < c.toNat
  equals : p '=' = false
  quote : p '"' = false
  semicolon : p ';' = false

lemma paramSpec_token : ParamSpec tokenSpec :=
  ⟨readable_spec (by decide), fun _ => visible_spec (by decide), by decide, by decide, by decide⟩

lemma paramSpec_paramChar : ParamSpec paramCharSpec :=
  ⟨readable_spec (by decide), fun _ => visible_spec (by decide), by decide, by decide, by decide⟩

lemma ParamSpec.nul (hp : ParamSpec p) : p nul = false := by
  rw [Bool.eq_false_iff]
  intro h
  exact absurd (hp.visible _ h) (by decide)

lemma settled_of_visible (hne : w ≠ []) (hw : ∀ c ∈ w, 32 < c.toNat) : Settled ws (w ++ s) := by
  obtain ⟨c, v, rfl⟩ := List.exists_cons_of_ne_nil hne
  exact settled_cons (hw c (by simp))

/-! ### One parameter -/

/-- What the parser makes of the value of a parameter. -/
def readValue (value : Text) : Text := if cur value = '"' then value else unescape value

/-- A name and a value as they may stand on the wire. -/
structure Written (p : Char → Bool) (name value : Text) : Prop where
  name_ne_nil : name ≠ []
  name : ∀ c ∈ name, p c = true
  value : (∀ c ∈ value, p c = true) ∨ Quoted value

/-- The text ends a parameter. -/
structure EndsParam (p : Char → Bool) (ws : Bool) (s : Text) : Prop where
  stop : p (cur s) = false
  equals : cur s ≠ '='
  settled : Settled ws s

lemma reads_getAndUnescape (hne : w ≠ []) (hw : ∀ c ∈ w, p c = true) (hs : p (cur s) = false)
    (hsettled : Settled ws s) : Reads (getAndUnescape ws p) (w ++ s) (unescape w) s :=
  (Reads.scanGet hne hw hs hsettled).bind (.pure _ _)

lemma cur_append_of_ne_nil (h : w ≠ []) : cur (w ++ s) = cur w := by
  obtain ⟨c, v, rfl⟩ := List.exists_cons_of_ne_nil h
  rfl

lemma mem_of_cur_ne_nil (h : w ≠ []) : cur w ∈ w := by
  obtain ⟨c, v, rfl⟩ := List.exists_cons_of_ne_nil h
  exact List.mem_cons_self

lemma cur_ne_quote (hp : ParamSpec p) (hvalue : ∀ c ∈ value, p c = true) : cur value ≠ '"' := by
  intro hcur
  by_cases hnil : value = []
  · rw [hnil] at hcur
    exact absurd hcur (by decide)
  · have hmem := hvalue _ (mem_of_cur_ne_nil hnil)
    rw [hcur, hp.quote] at hmem
    exact absurd hmem (by decide)

/-- The value after the sign of equality. -/
lemma reads_value (hp : ParamSpec p) (hne : value ≠ []) (hvalue : (∀ c ∈ value, p c = true) ∨
    Quoted value) (hs : EndsParam p ws s) (pname : Text) :
    Reads (do
      let _ ← scanGetChar ws
      if ← isEof then return ⟨pname, []⟩
      else if (← curChar) = '"' then
        let pvalue ← scanGetQuote ws '"'
        return ⟨pname, pvalue⟩
      else if p (← curChar) then
        let pvalue ← getAndUnescape ws p
        return ⟨pname, pvalue⟩
      else return ⟨pname, []⟩) ('=' :: (value ++ s)) (⟨pname, readValue value⟩ : Param) s := by
  have hvisible : Settled ws (value ++ s) := by
    rcases hvalue with hvalue | ⟨v, rfl, -⟩
    · exact settled_of_visible hne fun c hc => hp.visible c (hvalue c hc)
    · exact settled_cons (by decide)
  have hempty : (value ++ s).isEmpty = false := by simp [hne]
  refine (Reads.scanGetChar (by decide) hvisible).bind ((Reads.isEof _).bind ?_)
  rw [hempty, if_neg Bool.false_ne_true]
  refine (Reads.curChar _).bind ?_
  rw [cur_append_of_ne_nil hne, readValue]
  rcases hvalue with hvalue | hquoted
  · have hq := cur_ne_quote hp hvalue
    rw [if_neg hq, if_neg hq]
    refine (Reads.curChar _).bind ?_
    rw [cur_append_of_ne_nil hne, if_pos (hvalue _ (mem_of_cur_ne_nil hne))]
    exact (reads_getAndUnescape hne hvalue hs.stop hs.settled).bind (.pure _ _)
  · have hq : cur value = '"' := by
      obtain ⟨v, rfl, -⟩ := hquoted
      rfl
    rw [if_pos hq, if_pos hq]
    exact (Reads.scanGetQuote hquoted hs.settled).bind (.pure _ _)

lemma reads_paramImp (hp : ParamSpec p) (h : Written p name value) (hs : EndsParam p ws s) :
    Reads (parseParamImp ws p) ((name ++ if value = [] then [] else '=' :: value) ++ s)
      ⟨unescape name, readValue value⟩ s := by
  unfold parseParamImp
  by_cases hvalue : value = []
  · subst hvalue
    have hread : readValue [] = [] := by decide
    rw [if_pos rfl, List.append_nil, hread]
    refine (reads_getAndUnescape h.name_ne_nil h.name hs.stop hs.settled).bind ?_
    refine (Reads.curChar s).bind ?_
    rw [if_neg hs.equals]
    exact .pure _ _
  · rw [if_neg hvalue, List.append_assoc, List.cons_append]
    have hstop : p (cur ('=' :: (value ++ s))) = false := hp.equals
    refine (reads_getAndUnescape h.name_ne_nil h.name hstop (settled_cons (by decide))).bind ?_
    refine (Reads.curChar _).bind ?_
    rw [cur_cons, if_pos rfl]
    exact reads_value hp hvalue h.value hs _

/-- A parameter is read as it was written. -/
lemma reads_param (hp : ParamSpec p) (h : Written p name value) (hs : EndsParam p ws s) :
    Reads (parseParam ws p) (paramText ';' name value ++ s) ⟨unescape name, readValue value⟩ s := by
  have hsettled : Settled ws ((name ++ if value = [] then [] else '=' :: value) ++ s) := by
    rw [List.append_assoc]
    exact settled_of_visible h.name_ne_nil fun c hc => hp.visible c (h.name c hc)
  exact (Reads.scanGetChar (by decide) hsettled).bind (reads_paramImp hp h hs)

/-! ### Lists of parameters -/

/-- What is done with the parameters one after the other. -/
inductive Folds {σ : Type} (upd : σ → Param → Parser σ) : σ → List Param → σ → Prop
  | nil (x : σ) : Folds upd x [] x
  | cons {x y z : σ} {q : Param} {params : List Param} (hupd : ∀ s, Reads (upd x q) s y s)
      (htail : Folds upd y params z) : Folds upd x (q :: params) z

/-- The text of parameters that are as on the wire. -/
def paramsText (params : List Param) : Text := params.flatMap fun q => paramText ';' q.name q.value

/-- What the parser makes of a parameter. -/
def Param.read (q : Param) : Param := ⟨unescape q.name, readValue q.value⟩

variable {σ : Type} {upd : σ → Param → Parser σ} {x y z : σ} {params params' : List Param}

lemma Folds.append (h : Folds upd x params y) (h' : Folds upd y params' z) :
    Folds upd x (params ++ params') z := by
  induction h with
  | nil => exact h'
  | cons hupd _ ih => exact .cons hupd (ih h')

lemma paramsText_cons (q : Param) :
    paramsText (q :: params) = paramText ';' q.name q.value ++ paramsText params := rfl

lemma paramsText_append :
    paramsText (params ++ params') = paramsText params ++ paramsText params' :=
  List.flatMap_append

/-- A parameter that is there or not. -/
lemma paramsText_ite (b : Prop) [Decidable b] (name value : Text) :
    paramsText (if b then [⟨name, value⟩] else []) =
      if b then paramText ';' name value else [] := by
  split
  · exact List.append_nil _
  · rfl

/-- Parameters and what follows them end the parameter before them. -/
lemma endsParam_paramsText (hp : ParamSpec p) (hs : EndsParam p ws s) :
    EndsParam p ws (paramsText params ++ s) := by
  cases params with
  | nil => exact hs
  | cons q params =>
    have hcur : cur (paramsText (q :: params) ++ s) = ';' := rfl
    exact ⟨hcur ▸ hp.semicolon, by simp [hcur], settled_cons (by decide)⟩

/-- The loop over the parameters reads them all. -/
lemma loops_params (hp : ParamSpec p) (hw : ∀ q ∈ params, Written p q.name q.value)
    (hs : EndsParam p ws s) (hsemi : cur s ≠ ';') (h : Folds upd x (params.map Param.read) y) :
    Loops (fun s => cur s == ';') (fun x => do
      let q ← parseParam ws p
      upd x q) x (paramsText params ++ s) y s := by
  induction params generalizing x with
  | nil =>
    cases h
    have hcond : (cur s == ';') = false := by simpa using hsemi
    exact .done hcond
  | cons q params ih =>
    cases h with
    | cons hupd htail =>
      have hq := hw q (by simp)
      have hends : EndsParam p ws (paramsText params ++ s) := endsParam_paramsText hp hs
      have hread := reads_param hp hq hends
      rw [paramsText_cons, List.append_assoc]
      refine .step rfl (hread.bind (hupd _)) ?_ (ih (fun q' hq' => hw q' (by simp [hq'])) htail)
      simp only [paramText, List.cons_append, List.length_cons, List.length_append]
      omega

/-- The parameters of a list as they are on the wire. -/
def Param.written (p : Char → Bool) (q : Param) : Param := ⟨escape p q.name, valueText p q.value⟩

lemma printParams_eq (params : List Param) :
    printParams p ';' params = paramsText (params.map (Param.written p)) := by
  induction params with
  | nil => rfl
  | cons q params ih =>
    rw [printParams, if_neg (by decide), ih]
    rfl

/-- A parameter that is read back: its name is not empty, and its value is quoted if it begins with
a quote. -/
structure Param.Printable (q : Param) : Prop where
  name_ne_nil : q.name ≠ []
  bytes : Percent.Bytes (q.name ++ q.value)
  quoted : cur q.value = '"' → Quoted q.value

lemma printable_of_unquoted {q : Param} (hne : q.name ≠ []) (hbytes : ∀ c ∈ q.name ++ q.value,
    c.toNat < 256) (hquote : cur q.value ≠ '"') : q.Printable :=
  ⟨hne, hbytes, fun h => absurd h hquote⟩

lemma Param.Printable.written (hp : ParamSpec p) {q : Param} (h : q.Printable) :
    Written p (q.written p).name (q.written p).value where
  name_ne_nil := fun hnil => h.name_ne_nil (Percent.encode_eq_nil_iff.1 hnil)
  name := fun _ hc => hp.readable.of_mem_encode hc
  value := by
    show (∀ c ∈ valueText p q.value, p c = true) ∨ Quoted (valueText p q.value)
    rw [valueText]
    split
    · next hq => exact Or.inr (h.quoted hq)
    · exact Or.inl fun _ hc => hp.readable.of_mem_encode hc

/-- Escapes are read as the text itself would be read. -/
lemma unescape_escape (hp : Percent.Readable p) (hw : Percent.Bytes w) :
    unescape (escape p w) = unescape w := Percent.decode_encode hp hw

lemma readValue_valueText (hp : ParamSpec p) (hw : Percent.Bytes value) :
    readValue (valueText p value) = readValue value := by
  rw [valueText]
  split
  · rfl
  · next hq =>
    have hcur : cur (escape p value) ≠ '"' :=
      cur_ne_quote hp fun _ hc => hp.readable.of_mem_encode hc
    rw [readValue, readValue, if_neg hcur, if_neg hq, unescape_escape hp.readable hw]

lemma Param.Printable.read_written (hp : ParamSpec p) {q : Param} (h : q.Printable) :
    (q.written p).read = q.read := by
  have hname : Percent.Bytes q.name := fun c hc => h.bytes c (List.mem_append_left _ hc)
  have hvalue : Percent.Bytes q.value := fun c hc => h.bytes c (List.mem_append_right _ hc)
  rw [Param.read, Param.read, Param.written, unescape_escape hp.readable hname,
    readValue_valueText hp hvalue]

lemma map_read_written (hp : ParamSpec p) {params : List Param}
    (h : ∀ q ∈ params, q.Printable) :
    (params.map (Param.written p)).map Param.read = params.map Param.read := by
  rw [List.map_map]
  exact List.map_congr_left fun q hq => (h q hq).read_written hp

lemma written_of_mem (hp : ParamSpec p) {params : List Param} (h : ∀ q ∈ params, q.Printable)
    {q : Param} (hq : q ∈ params.map (Param.written p)) : Written p q.name q.value := by
  obtain ⟨q', hq', rfl⟩ := List.mem_map.1 hq
  exact (h q' hq').written hp

end Sip.Wire
