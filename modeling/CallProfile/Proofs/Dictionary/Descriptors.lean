import CallProfile.Dictionary
import Mathlib.Data.List.Basic

/-!
# Cutting descriptors

A descriptor is cut into its fields at the first three colons of its text.  Fields may be empty, and
what is behind the third colon is the last field, whatever it is.

* `cut?_eq_some_iff`, `cut?_eq_none_iff` — one cut is made at the first separator, if there is one.
* `Descriptor.parse?_text`, `Descriptor.of_parse?` — three cuts, one behind the other, undo the
  joining of four fields, and joining undoes the cuts.
* `Descriptor.parse?_eq_none_iff` — they cannot be made if there are fewer than three colons.
* **`parse?_inverts_text`** — so cutting is the inverse of joining, for all texts and all fields.
-/

namespace CallProfile

section

variable {separator : Char} {text before after : List Char}

/-! ## One cut -/

/-- A text cannot be cut exactly if the separator is not in it. -/
lemma cut?_eq_none_iff : cut? separator text = none ↔ separator ∉ text := by
  induction text with
  | nil => simp [cut?]
  | cons c rest ih =>
      rw [cut?]
      by_cases hc : c = separator
      · simp [hc]
      · rw [if_neg hc, Option.map_eq_none_iff, ih, List.mem_cons, not_or]
        exact (and_iff_right fun h => hc h.symm).symm

/-- **A cut is made at the first separator.** -/
lemma cut?_eq_some_iff :
    cut? separator text = some (before, after) ↔
      text = before ++ separator :: after ∧ separator ∉ before := by
  induction text generalizing before with
  | nil => simp [cut?]
  | cons c rest ih =>
      rw [cut?]
      by_cases hc : c = separator
      · subst hc
        rw [if_pos rfl, Option.some.injEq, Prod.mk.injEq]
        constructor
        · rintro ⟨rfl, rfl⟩
          exact ⟨rfl, List.not_mem_nil⟩
        · rintro ⟨htext, hbefore⟩
          cases before with
          | nil => exact ⟨rfl, (List.cons.inj htext).2⟩
          | cons first before =>
              obtain ⟨rfl, -⟩ := List.cons.inj htext
              exact absurd List.mem_cons_self hbefore
      · rw [if_neg hc, Option.map_eq_some_iff]
        constructor
        · rintro ⟨⟨inner, behind⟩, hcut, hpair⟩
          cases hpair
          obtain ⟨rfl, hinner⟩ := ih.mp hcut
          exact ⟨rfl, List.not_mem_cons_of_ne_of_not_mem (fun h => hc h.symm) hinner⟩
        · rintro ⟨htext, hbefore⟩
          cases before with
          | nil => exact absurd (List.cons.inj htext).1 hc
          | cons first before =>
              obtain ⟨rfl, rfl⟩ := List.cons.inj htext
              exact ⟨(before, after), ih.mpr ⟨rfl, List.not_mem_of_not_mem_cons hbefore⟩, rfl⟩

lemma cut?_append (hbefore : separator ∉ before) (after : List Char) :
    cut? separator (before ++ separator :: after) = some (before, after) :=
  cut?_eq_some_iff.mpr ⟨rfl, hbefore⟩

/-- A cut takes one separator away. -/
lemma count_of_cut? (h : cut? separator text = some (before, after)) :
    text.count separator = after.count separator + 1 := by
  obtain ⟨rfl, hbefore⟩ := cut?_eq_some_iff.mp h
  rw [List.count_append, List.count_eq_zero.mpr hbefore, List.count_cons_self, Nat.zero_add]

end

/-! ## Three cuts -/

namespace Descriptor

/-- The fields in front of the last one have no colons in them. -/
structure IsCut (d : Descriptor) : Prop where
  language : ':' ∉ d.language.toList
  symbol : ':' ∉ d.symbol.toList
  line : ':' ∉ d.line.toList

/-- The text of a descriptor has its four fields with colons between them. -/
lemma intercalate_fields (d : Descriptor) :
    ":".intercalate [d.language, d.symbol, d.line, d.file] = d.text := by
  simp [text, String.append_assoc]

lemma toList_text (d : Descriptor) :
    d.text.toList = d.language.toList ++
      ':' :: (d.symbol.toList ++ ':' :: (d.line.toList ++ ':' :: d.file.toList)) := by
  simp [text]

/-- **Cutting finds the fields that were joined.** -/
theorem parse?_text {d : Descriptor} (h : d.IsCut) : parse? d.text = some d := by
  simp only [parse?, toList_text, cut?_append h.language, cut?_append h.symbol, cut?_append h.line,
    Option.bind_eq_bind, Option.bind_some, String.ofList_toList]
  rfl

/-- **Fields that were cut out join to the text.** -/
theorem of_parse? {text : String} {d : Descriptor} (h : parse? text = some d) :
    d.text = text ∧ d.IsCut := by
  obtain ⟨⟨language, behind⟩, hlanguage, h⟩ := Option.bind_eq_some_iff.mp h
  obtain ⟨⟨symbol, rest⟩, hsymbol, h⟩ := Option.bind_eq_some_iff.mp h
  obtain ⟨⟨line, file⟩, hline, h⟩ := Option.bind_eq_some_iff.mp h
  cases h
  obtain ⟨htext, hlanguage⟩ := cut?_eq_some_iff.mp hlanguage
  obtain ⟨rfl, hsymbol⟩ := cut?_eq_some_iff.mp hsymbol
  obtain ⟨rfl, hline⟩ := cut?_eq_some_iff.mp hline
  refine ⟨?_, ⟨by simpa, by simpa, by simpa⟩⟩
  rw [← String.toList_inj, toList_text, htext]
  simp

/-- The symbol is what stands between the first colon and the second one. -/
lemma getElem?_splitOn_of_parse? {text : String} {d : Descriptor} (h : parse? text = some d) :
    (text.toList.splitOn ':')[1]? = some d.symbol.toList := by
  obtain ⟨rfl, hcut⟩ := of_parse? h
  rw [toList_text, List.splitOn_append_cons_self_of_not_mem hcut.language,
    List.splitOn_append_cons_self_of_not_mem hcut.symbol]
  rfl

/-- A text is no descriptor exactly if it has fewer than three colons. -/
theorem parse?_eq_none_iff {text : String} :
    parse? text = none ↔ text.toList.count ':' < 3 := by
  have hmissing : ∀ {rest : List Char}, cut? ':' rest = none → rest.count ':' = 0 :=
    fun h => List.count_eq_zero.mpr (cut?_eq_none_iff.mp h)
  rw [parse?]
  cases hlanguage : cut? ':' text.toList with
  | none => simp [hmissing hlanguage]
  | some first =>
      cases hsymbol : cut? ':' first.2 with
      | none => simp [hsymbol, count_of_cut? hlanguage, hmissing hsymbol]
      | some second =>
          cases hline : cut? ':' second.2 with
          | none =>
              simp [hsymbol, hline, count_of_cut? hlanguage, count_of_cut? hsymbol, hmissing hline]
          | some third =>
              simp [hsymbol, hline, count_of_cut? hlanguage, count_of_cut? hsymbol,
                count_of_cut? hline]

end Descriptor

/-- **Cutting is the inverse of joining.**  A text has no fields exactly if it has fewer than three
colons.  If it has fields, then joining them with colons gives the text back, and none of the first
three has a colon.  And any four fields are found again in the text that joins them, if there are no
colons in the first three; they may be empty, and there may be colons in the last one. -/
theorem parse?_inverts_text :
    (∀ text : String, Descriptor.parse? text = none ↔ text.toList.count ':' < 3) ∧
    (∀ (text : String) (d : Descriptor), Descriptor.parse? text = some d →
      ":".intercalate [d.language, d.symbol, d.line, d.file] = text ∧
      ':' ∉ d.language.toList ∧ ':' ∉ d.symbol.toList ∧ ':' ∉ d.line.toList) ∧
    ∀ language symbol line file : String,
      ':' ∉ language.toList → ':' ∉ symbol.toList → ':' ∉ line.toList →
      Descriptor.parse? (":".intercalate [language, symbol, line, file]) =
        some ⟨language, symbol, line, file⟩ := by
  refine ⟨fun _ => Descriptor.parse?_eq_none_iff, fun text d h => ?_,
    fun language symbol line file hlanguage hsymbol hline => ?_⟩
  · obtain ⟨htext, hcut⟩ := Descriptor.of_parse? h
    exact ⟨d.intercalate_fields.trans htext, hcut.language, hcut.symbol, hcut.line⟩
  · have hjoin := Descriptor.intercalate_fields ⟨language, symbol, line, file⟩
    exact (congrArg _ hjoin).trans (Descriptor.parse?_text ⟨hlanguage, hsymbol, hline⟩)

/-- Empty fields stay empty, and a path with colons stays whole. -/
theorem parse?_emptyFields :
    Descriptor.parse? ":run::C:\\a:" = some ⟨"", "run", "", "C:\\a:"⟩ :=
  parse?_inverts_text.2.2 "" "run" "" "C:\\a:" (by decide) (by decide) (by decide)

end CallProfile
