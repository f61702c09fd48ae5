import MediaPhases.Command.Template
import Mathlib.Data.List.Basic

/-!
# Filling templates

A template is filled in one pass from left to right.  The laws of the pass say what becomes of text
without opening braces, of a placeholder, and of an opening brace that is never closed, and that
what follows a closed template is filled by itself.  They leave no choice: every function with
these laws fills templates in the same way.  In particular the values that are put in are not
looked at again.

A literal opening brace changes where the placeholders behind it begin.  A placeholder behind a
closed template is always filled; behind a brace that is still open, it is a part of a longer name.
-/

namespace MediaPhases.TemplateContext

variable {c : TemplateContext} {name tail rest u v cs : List Char} {f : String → String}

/-! ## Closed templates -/

/-- Every opening brace that the pass comes to is closed by the next closing brace; the braces
between the two are characters of a name. -/
inductive IsClosed : List Char → Prop where
  | nil : IsClosed []
  | plain {x : Char} {rest : List Char} (hx : x ≠ '{') (h : IsClosed rest) : IsClosed (x :: rest)
  | placeholder {name rest : List Char} (hname : '}' ∉ name) (h : IsClosed rest) :
      IsClosed ('{' :: (name ++ '}' :: rest))

theorem isClosed_of_notMem (h : '{' ∉ cs) : IsClosed cs := by
  induction cs with
  | nil => exact .nil
  | cons x cs ih =>
      rw [List.mem_cons, not_or] at h
      exact .plain (Ne.symm h.1) (ih h.2)

theorem isClosed_placeholder (hname : '}' ∉ name) : IsClosed ('{' :: (name ++ ['}'])) :=
  .placeholder hname .nil

/-- A template is closed, or its last opening brace stays open. -/
theorem isClosed_or_exists_open (cs : List Char) :
    IsClosed cs ∨ ∃ u tail, cs = u ++ '{' :: tail ∧ IsClosed u ∧ '}' ∉ tail := by
  induction hlength : cs.length using Nat.strongRecOn generalizing cs with
  | _ n ih =>
      cases cs with
      | nil => exact .inl .nil
      | cons x rest =>
          rw [List.length_cons] at hlength
          by_cases hx : x = '{'
          · subst hx
            by_cases hclosed : '}' ∈ rest
            · obtain ⟨name, more, rfl, hname⟩ := List.eq_append_cons_of_mem hclosed
              rw [List.length_append, List.length_cons] at hlength
              rcases ih more.length (by omega) more rfl with h | ⟨u, tail, rfl, hu, htail⟩
              · exact .inl (.placeholder hname h)
              · refine .inr ⟨'{' :: (name ++ '}' :: u), tail, ?_, .placeholder hname hu, htail⟩
                simp
            · exact .inr ⟨[], rest, rfl, .nil, hclosed⟩
          · rcases ih rest.length (by omega) rest rfl with h | ⟨u, tail, rfl, hu, htail⟩
            · exact .inl (.plain hx h)
            · exact .inr ⟨x :: u, tail, rfl, .plain hx hu, htail⟩

/-! ## The pass -/

theorem fill_plain {x : Char} (hx : x ≠ '{') :
    c.fill none (x :: rest) = x :: c.fill none rest := by
  rw [fill, if_neg hx]

theorem fill_name (hname : '}' ∉ name) (read : List Char) :
    c.fill (some read) (name ++ '}' :: rest) =
      c.placeholder (read.reverse ++ name) ++ c.fill none rest := by
  induction name generalizing read with
  | nil => simp [fill]
  | cons x name ih =>
      rw [List.mem_cons, not_or] at hname
      rw [List.cons_append, fill, if_neg (Ne.symm hname.1), ih hname.2, List.reverse_cons,
        List.append_assoc, List.singleton_append]

/-- A placeholder is filled, and the pass goes on behind it. -/
theorem fill_placeholder (hname : '}' ∉ name) :
    c.fill none ('{' :: (name ++ '}' :: rest)) = c.placeholder name ++ c.fill none rest := by
  rw [fill, if_pos rfl, fill_name hname]
  rfl

theorem fill_unread (htail : '}' ∉ tail) (read : List Char) :
    c.fill (some read) tail = '{' :: (read.reverse ++ tail) := by
  induction tail generalizing read with
  | nil => simp [fill]
  | cons x tail ih =>
      rw [List.mem_cons, not_or] at htail
      rw [fill, if_neg (Ne.symm htail.1), ih htail.2, List.reverse_cons, List.append_assoc,
        List.singleton_append]

/-- An opening brace that is never closed stays, with all that follows it. -/
theorem fill_open (htail : '}' ∉ tail) : c.fill none ('{' :: tail) = '{' :: tail := by
  rw [fill, if_pos rfl, fill_unread htail]
  rfl

/-- What follows a closed template is filled by itself. -/
theorem fill_append (hu : IsClosed u) : c.fill none (u ++ v) = c.fill none u ++ c.fill none v := by
  induction hu with
  | nil => rfl
  | plain hx _ ih => rw [List.cons_append, fill_plain hx, fill_plain hx, ih, List.cons_append]
  | placeholder hname _ ih =>
      rw [List.cons_append, List.append_assoc, List.cons_append, fill_placeholder hname,
        fill_placeholder hname, ih, List.append_assoc]

theorem fill_of_notMem (h : '{' ∉ cs) : c.fill none cs = cs := by
  induction cs with
  | nil => rfl
  | cons x cs ih =>
      rw [List.mem_cons, not_or] at h
      rw [fill_plain (Ne.symm h.1), ih h.2]

/-! ## The laws of the pass -/

/-- The placeholder of a name. -/
def braced (name : String) : String :=
  "\x7b" ++ name ++ "\x7d"

/-- The function treats templates as a single pass with the variables of the context does. -/
structure FillsInOnePass (c : TemplateContext) (f : String → String) : Prop where
  append : ∀ u t, IsClosed u.toList → f (u ++ t) = f u ++ f t
  plain : ∀ s, '{' ∉ s.toList → f s = s
  known : ∀ name value, '}' ∉ name.toList → c.get? name = some value →
    f (braced name) = value
  unknown : ∀ name, '}' ∉ name.toList → c.get? name = none →
    f (braced name) = braced name
  unclosed : ∀ tail, '}' ∉ tail.toList → f ("\x7b" ++ tail) = "\x7b" ++ tail

theorem substitute_eq_iff {s t : String} :
    c.substitute s = t ↔ c.fill none s.toList = t.toList := by
  rw [substitute, ← String.toList_inj, String.toList_ofList]

theorem toList_substitute (s : String) : (c.substitute s).toList = c.fill none s.toList :=
  String.toList_ofList

theorem toList_braced (name : String) :
    (braced name).toList = '{' :: (name.toList ++ ['}']) := by
  simp [braced]

theorem placeholder_of_get? {name value : String} (h : c.get? name = some value) :
    c.placeholder name.toList = value.toList := by
  rw [placeholder, String.ofList_toList, h]

theorem placeholder_of_get?_eq_none {name : String} (h : c.get? name = none) :
    c.placeholder name.toList = '{' :: (name.toList ++ ['}']) := by
  rw [placeholder, String.ofList_toList, h]
  rfl

theorem fillsInOnePass_substitute (c : TemplateContext) : c.FillsInOnePass c.substitute where
  append := by
    intro u t hu
    rw [substitute_eq_iff, String.toList_append, String.toList_append, toList_substitute,
      toList_substitute]
    exact fill_append hu
  plain := by
    intro s hs
    exact substitute_eq_iff.mpr (fill_of_notMem hs)
  known := by
    intro name value hname hvalue
    rw [substitute_eq_iff, toList_braced, fill_placeholder hname, placeholder_of_get? hvalue]
    exact List.append_nil _
  unknown := by
    intro name hname hnone
    rw [substitute_eq_iff, toList_braced, fill_placeholder hname,
      placeholder_of_get?_eq_none hnone]
    exact List.append_nil _
  unclosed := by
    intro tail htail
    rw [substitute_eq_iff, String.toList_append]
    exact fill_open htail

namespace FillsInOnePass

variable {g : String → String}

theorem placeholder_eq (hf : c.FillsInOnePass f) {name : String} (hname : '}' ∉ name.toList) :
    f (braced name) = c.substitute (braced name) := by
  have hpass := c.fillsInOnePass_substitute
  by_cases hvalue : ∃ value, c.get? name = some value
  · obtain ⟨value, hvalue⟩ := hvalue
    rw [hf.known name value hname hvalue, hpass.known name value hname hvalue]
  · have hnone : c.get? name = none := by
      rw [Option.eq_none_iff_forall_ne_some]
      exact fun value hsome => hvalue ⟨value, hsome⟩
    rw [hf.unknown name hname hnone, hpass.unknown name hname hnone]

/-- On a closed template the laws are used part by part. -/
theorem eq_of_isClosed (hf : c.FillsInOnePass f) (h : IsClosed cs) :
    f (String.ofList cs) = c.substitute (String.ofList cs) := by
  have hpass := c.fillsInOnePass_substitute
  induction h with
  | nil => rw [hf.plain _ (by simp), hpass.plain _ (by simp)]
  | @plain x rest hx _ ih =>
      have hsplit : String.ofList (x :: rest) = String.ofList [x] ++ String.ofList rest := by
        rw [← String.ofList_append]
        rfl
      have hfirst : '{' ∉ (String.ofList [x]).toList := by simpa using Ne.symm hx
      have hclosed := isClosed_of_notMem hfirst
      rw [hsplit, hf.append _ _ hclosed, hpass.append _ _ hclosed, hf.plain _ hfirst,
        hpass.plain _ hfirst, ih]
  | @placeholder name rest hname _ ih =>
      have hsplit : String.ofList ('{' :: (name ++ '}' :: rest)) =
          braced (String.ofList name) ++ String.ofList rest := by
        simp [braced, ← String.toList_inj]
      have hname' : '}' ∉ (String.ofList name).toList := by
        rwa [String.toList_ofList]
      have hclosed : IsClosed (braced (String.ofList name)).toList := by
        rw [toList_braced]
        exact isClosed_placeholder hname'
      rw [hsplit, hf.append _ _ hclosed, hpass.append _ _ hclosed, hf.placeholder_eq hname', ih]

theorem eq_substitute (hf : c.FillsInOnePass f) : f = c.substitute := by
  have hpass := c.fillsInOnePass_substitute
  funext s
  rcases isClosed_or_exists_open s.toList with h | ⟨u, tail, hs, hu, htail⟩
  · have heq := hf.eq_of_isClosed h
    rwa [String.ofList_toList] at heq
  · have hsplit : s = String.ofList u ++ ("\x7b" ++ String.ofList tail) := by
      simp [← String.toList_inj, hs]
    have hclosed : IsClosed (String.ofList u).toList := by
      rwa [String.toList_ofList]
    have hopen : '}' ∉ (String.ofList tail).toList := by
      rwa [String.toList_ofList]
    rw [hsplit, hf.append _ _ hclosed, hpass.append _ _ hclosed, hf.eq_of_isClosed hu,
      hf.unclosed _ hopen, hpass.unclosed _ hopen]

end FillsInOnePass

/-- Without variables every template stays as it is. -/
theorem fillsInOnePass_id : ({} : TemplateContext).FillsInOnePass id where
  append := by
    intro u t hu
    rfl
  plain := by
    intro s hs
    rfl
  known := by
    intro name value hname hvalue
    cases hvalue
  unknown := by
    intro name hname hnone
    rfl
  unclosed := by
    intro tail htail
    rfl

/-- What stands before, at and behind a placeholder is filled separately. -/
theorem substitute_append_placeholder {name u : String} (hname : '}' ∉ name.toList)
    (hu : IsClosed u.toList) (t : String) :
    c.substitute (u ++ braced name ++ t) =
      c.substitute u ++ c.substitute (braced name) ++ c.substitute t := by
  have hpass := c.fillsInOnePass_substitute
  have hclosed : IsClosed (braced name).toList := by
    rw [toList_braced]
    exact isClosed_placeholder hname
  calc
    c.substitute (u ++ braced name ++ t) =
        c.substitute (u ++ (braced name ++ t)) := by simp only [String.append_assoc]
    _ = c.substitute u ++ (c.substitute (braced name) ++ c.substitute t) := by
      rw [hpass.append _ _ hu, hpass.append _ _ hclosed]
    _ = c.substitute u ++ c.substitute (braced name) ++ c.substitute t :=
      (String.append_assoc ..).symm

/-- The value of a placeholder behind a closed template is put in as it is. -/
theorem substitute_of_isClosed {name value u : String} (hname : '}' ∉ name.toList)
    (hvalue : c.get? name = some value) (hu : IsClosed u.toList) (t : String) :
    c.substitute (u ++ braced name ++ t) = c.substitute u ++ value ++ c.substitute t := by
  rw [substitute_append_placeholder hname hu,
    c.fillsInOnePass_substitute.known name value hname hvalue]

/-- Templates are filled in the only way that a single pass from left to right leaves: closed
templates part by part, text without opening braces and braces that stay open as they are, and each
placeholder by its value, or by itself where it has none.  So no value is looked at again, and
without variables every template stays as it is. -/
theorem substitute_onePass (c : TemplateContext) :
    (∀ f, c.FillsInOnePass f ↔ f = c.substitute) ∧
      (∀ name value u t : String, '}' ∉ name.toList → c.get? name = some value →
        IsClosed u.toList →
        c.substitute (u ++ braced name ++ t) =
          c.substitute u ++ value ++ c.substitute t) ∧
      ∀ s, ({} : TemplateContext).substitute s = s := by
  refine ⟨?_, ?_, ?_⟩
  · intro f
    constructor
    · intro hf
      exact hf.eq_substitute
    · rintro rfl
      exact c.fillsInOnePass_substitute
  · intro name value u t hname hvalue hu
    exact substitute_of_isClosed hname hvalue hu t
  · intro s
    rw [← fillsInOnePass_id.eq_substitute]
    rfl

example : ((({} : TemplateContext).set "input" "/tmp/{phase}.mkv").set "phase" "tag").substitute
    "{input}-{phase}-{other}" = "/tmp/{phase}.mkv-tag-{other}" := by decide

/-! ## Braces before a placeholder -/

/-- No variable has an opening brace in its name. -/
def HasPlainNames (c : TemplateContext) : Prop :=
  ∀ name value, c.get? name = some value → '{' ∉ name.toList

theorem HasPlainNames.set (h : c.HasPlainNames) {name : String} (hname : '{' ∉ name.toList)
    (value : String) : (c.set name value).HasPlainNames := by
  intro key other hkey
  rw [get?, TemplateContext.set, List.lookup_cons] at hkey
  by_cases hsame : key = name
  · rwa [hsame]
  · rw [beq_eq_false_iff_ne.mpr hsame] at hkey
    exact h key other hkey

theorem HasPlainNames.setSome (h : c.HasPlainNames) {name : String} (hname : '{' ∉ name.toList)
    (value : Option String) : (c.setSome name value).HasPlainNames := by
  cases value with
  | none => exact h
  | some value => exact h.set hname value

/-- The variables that describe a file have plain names. -/
theorem hasPlainNames_ofFile (path phase : String) : (ofFile path phase).HasPlainNames := by
  have hempty : ({} : TemplateContext).HasPlainNames := by
    intro name value h
    cases h
  have hpath := hempty.set (show '{' ∉ "input".toList by decide) path
  have hphase := hpath.set (show '{' ∉ "phase".toList by decide) phase
  have hfilename := hphase.setSome (show '{' ∉ "filename".toList by decide) (Path.fileName? path)
  have hfilestem := hfilename.setSome (show '{' ∉ "filestem".toList by decide)
    (Path.fileStem? path)
  have hextension := hfilestem.setSome (show '{' ∉ "extension".toList by decide)
    (Path.extension? path)
  exact hextension.setSome (show '{' ∉ "dirname".toList by decide) (Path.parent? path)

theorem notMem_longerName {name tail : String} (hname : '}' ∉ name.toList)
    (htail : '}' ∉ tail.toList) : '}' ∉ (tail ++ "\x7b" ++ name).toList := by
  simp [htail, hname]

/-- Behind a brace that is still open, a placeholder ends a longer name. -/
theorem substitute_of_open {name before tail : String} (hname : '}' ∉ name.toList)
    (hbefore : IsClosed before.toList) (htail : '}' ∉ tail.toList) (v : String) :
    c.substitute (before ++ "\x7b" ++ tail ++ braced name ++ v) =
      c.substitute before ++ c.substitute (braced (tail ++ "\x7b" ++ name)) ++
        c.substitute v := by
  rw [← substitute_append_placeholder (notMem_longerName hname htail) hbefore]
  simp only [braced, String.append_assoc]

theorem exists_open_of_not_isClosed {u : String} (hu : ¬IsClosed u.toList) :
    ∃ before tail : String, u = before ++ "\x7b" ++ tail ∧ IsClosed before.toList ∧
      '}' ∉ tail.toList := by
  obtain ⟨before, tail, hsplit, hbefore, htail⟩ :=
    (isClosed_or_exists_open u.toList).resolve_left hu
  refine ⟨String.ofList before, String.ofList tail, ?_, ?_, ?_⟩
  · simp [← String.toList_inj, hsplit]
  · rwa [String.toList_ofList]
  · rwa [String.toList_ofList]

/-- A placeholder behind a brace that is still open is left as it is written. -/
theorem substitute_of_not_isClosed (hplain : c.HasPlainNames) {name u : String}
    (hname : '}' ∉ name.toList) (hu : ¬IsClosed u.toList) (v : String) :
    c.substitute (u ++ braced name ++ v) =
      c.substitute u ++ (braced name) ++ c.substitute v := by
  have hpass := c.fillsInOnePass_substitute
  obtain ⟨before, tail, rfl, hbefore, htail⟩ := exists_open_of_not_isClosed hu
  have hnone : c.get? (tail ++ "\x7b" ++ name) = none := by
    rw [Option.eq_none_iff_forall_ne_some]
    intro value hvalue
    apply hplain _ value hvalue
    simp
  have hopen : c.substitute (before ++ "\x7b" ++ tail) =
      c.substitute before ++ ("\x7b" ++ tail) := by
    rw [String.append_assoc, hpass.append _ _ hbefore, hpass.unclosed _ htail]
  rw [substitute_of_open hname hbefore htail, hpass.unknown _ (notMem_longerName hname htail) hnone,
    hopen]
  simp only [braced, String.append_assoc]

/-- A variable is filled in behind every closed template.  Where a brace before its placeholder is
still open, what the pass looks for is the longer name that begins there.  Where no variable has a
brace in its name, as for files, such a placeholder is left as it is written, so that exactly the
placeholders behind closed templates are filled. -/
theorem substitute_known {name value : String} (hname : '}' ∉ name.toList)
    (hvalue : c.get? name = some value) (u v : String) :
    (IsClosed u.toList →
      c.substitute (u ++ braced name ++ v) = c.substitute u ++ value ++ c.substitute v) ∧
    (¬IsClosed u.toList → ∃ before tail : String, u = before ++ "\x7b" ++ tail ∧
      IsClosed before.toList ∧ '}' ∉ tail.toList ∧
      c.substitute (u ++ braced name ++ v) =
        c.substitute before ++ c.substitute (braced (tail ++ "\x7b" ++ name)) ++
          c.substitute v) ∧
    (c.HasPlainNames →
      (c.substitute (u ++ braced name ++ v) = c.substitute u ++ value ++ c.substitute v ↔
        IsClosed u.toList ∨ value = braced name)) := by
  refine ⟨?_, ?_, ?_⟩
  · intro hu
    exact substitute_of_isClosed hname hvalue hu v
  · intro hu
    obtain ⟨before, tail, rfl, hbefore, htail⟩ := exists_open_of_not_isClosed hu
    exact ⟨before, tail, rfl, hbefore, htail, substitute_of_open hname hbefore htail v⟩
  · intro hplain
    by_cases hu : IsClosed u.toList
    · exact iff_of_true (substitute_of_isClosed hname hvalue hu v) (.inl hu)
    · rw [substitute_of_not_isClosed hplain hname hu, or_iff_right hu]
      constructor
      · intro h
        rw [String.append_left_inj, String.append_right_inj] at h
        exact h.symm
      · rintro rfl
        rfl

/-- The input of a file behind text, and behind a brace of the text. -/
theorem substitute_input :
    (ofFile "a.mkv" "cut").substitute ("{phase}: cat " ++ braced "input" ++ "; \x7d") =
        (ofFile "a.mkv" "cut").substitute "{phase}: cat " ++ "a.mkv" ++
          (ofFile "a.mkv" "cut").substitute "; \x7d" ∧
      ¬IsClosed "\x7b cat ".toList := by
  have hname : '}' ∉ "input".toList := by decide
  have hvalue : (ofFile "a.mkv" "cut").get? "input" = some "a.mkv" := by decide
  constructor
  · apply (substitute_known hname hvalue "{phase}: cat " "; \x7d").1
    exact @IsClosed.placeholder "phase".toList _ (by decide) (isClosed_of_notMem (by decide))
  · intro hclosed
    have hfilled := ((substitute_known hname hvalue "\x7b cat " "; \x7d").2.2
      (hasPlainNames_ofFile _ _)).mpr (.inl hclosed)
    revert hfilled
    decide

/-- A literal brace before a placeholder keeps the variable from being filled in. -/
theorem input_not_filled_behind_brace :
    (ofFile "a.mkv" "cut").get? "input" = some "a.mkv" ∧
      (ofFile "a.mkv" "cut").substitute ("\x7b cat " ++ braced "input" ++ "; \x7d") =
        "\x7b cat {input}; \x7d" ∧
      (ofFile "a.mkv" "cut").substitute "\x7b cat " ++ "a.mkv" ++
        (ofFile "a.mkv" "cut").substitute "; \x7d" = "\x7b cat a.mkv; \x7d" := by
  refine ⟨?_, ?_, ?_⟩
  all_goals decide

end MediaPhases.TemplateContext
