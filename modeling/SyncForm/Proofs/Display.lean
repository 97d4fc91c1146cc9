import SyncForm.Proofs.Derived
import SyncForm.Proofs.Reconciling

/-!
# What the task form displays

The layout takes a type field for the code that its value spells, the write modes and the test for a
single sink look at the value itself. The two agree: no value but a text spells the code of a
built-in type (`Value.plain_eq_code`). So the field of the write modes is shown just where there are
modes to choose from, and the field of the target table is hidden just where the target is the
single sink (`Layout.weight_display`). `Template.display_reaches` puts this together with what
`Derived` says of every table.
-/

namespace SyncForm

/-! ## What spells the code of a type -/

/-- The characters of written numbers. -/
def Text.ofNumeral (c : Char) : Bool :=
  c.isDigit || "+-.einfa".toList.contains c

namespace Binary64

/-- Digits are characters of written numbers. -/
theorem ofNumeral_digits (n : Nat) : ∀ c ∈ Nat.toDigits 10 n, Text.ofNumeral c = true := by
  intro c hc
  rw [Text.ofNumeral, Nat.isDigit_of_mem_toDigits (by decide) (by decide) hc, Bool.true_or]

/-- A decimal is written with characters of numbers. -/
theorem ofNumeral_write (d : Decimal) : ∀ c ∈ d.write, Text.ofNumeral c = true := by
  have hdigits := ofNumeral_digits d.digits
  have hmarks : ∀ c ∈ "0.e+-".toList, Text.ofNumeral c = true := List.all_eq_true.1 (by decide)
  have hpower := ofNumeral_digits (((Nat.toDigits 10 d.digits).length + d.exponent) - 1).natAbs
  unfold Decimal.write
  dsimp only
  generalize Nat.toDigits 10 d.digits = digits at *
  intro c hc
  split at hc
  · rcases List.mem_append.1 hc with hc | hc
    · split at hc
      · exact absurd hc List.not_mem_nil
      · exact hdigits c hc
      · grind
    · grind
  · split at hc
    · grind
    · split at hc
      · grind
      · rcases List.mem_append.1 hc with hc | hc
        · exact hdigits c (List.mem_of_mem_take hc)
        · rcases List.mem_cons.1 hc with rfl | hc
          · rfl
          · exact hdigits c (List.mem_of_mem_drop hc)

/-- A number is written with characters of numbers. -/
theorem ofNumeral_render (x : Binary64) : ∀ c ∈ x.render.toList, Text.ofNumeral c = true := by
  cases x with
  | nan => exact List.all_eq_true.1 (by decide)
  | infinity negative => cases negative <;> exact List.all_eq_true.1 (by decide)
  | finite negative scale fraction =>
    unfold render
    dsimp only
    rw [String.toList_ofList]
    have hbody : ∀ c ∈ (if magnitude scale fraction = 0 then ['0', '.', '0']
        else (shortest scale fraction).write), Text.ofNumeral c = true := by
      intro c hc
      split at hc
      · have hzero : ['0', '.', '0'].all Text.ofNumeral = true := by decide
        exact List.all_eq_true.1 hzero c hc
      · exact ofNumeral_write _ c hc
    intro c hc
    split at hc
    · rcases List.mem_cons.1 hc with rfl | hc
      · rfl
      · exact hbody c hc
    · exact hbody c hc

end Binary64

/-- An integer is written with characters of numbers. -/
theorem Text.ofNumeral_toString (i : Int) : ∀ c ∈ (toString i).toList, Text.ofNumeral c = true := by
  have hnat (n : Nat) : ∀ c ∈ n.repr.toList, Text.ofNumeral c = true := by
    rw [Nat.repr_eq_ofList_toDigits, String.toList_ofList]
    exact Binary64.ofNumeral_digits n
  cases i with
  | ofNat n => exact hnat n
  | negSucc n =>
    intro c hc
    have hsplit : (toString (Int.negSucc n)).toList = "-".toList ++ (n + 1).repr.toList :=
      String.toList_append
    rw [hsplit] at hc
    rcases List.mem_append.1 hc with hc | hc
    · obtain rfl := List.mem_singleton.1 hc
      rfl
    · exact hnat (n + 1) c hc

/-- The codes of the types that the layout, the write modes or the mapping editor single out. -/
def Datasource.special : List String :=
  [Datasource.mysql, Datasource.hive, Datasource.elasticsearch]

/-- A value that is a given text is that text. -/
theorem Value.eq_text {v : Value} {s : String} (h : v.isText s = true) : v = .text s := by
  cases v with
  | text t => rw [beq_iff_eq.1 h]
  | _ => cases h

/-- Of all values only the text of a code spells it. -/
theorem Value.plain_eq_code {code : String} (hcode : code ∈ Datasource.special) (v : Value) :
    v.plain = code ↔ v.isText code = true := by
  have hspelled : ∀ code ∈ Datasource.special, code.toList.any (!Text.ofNumeral ·) = true ∧
      code.toList.head? ∉ ['[', '\x7b', 'C'].map some ∧ code ∉ ["None", "True", "False"] := by
    decide
  obtain ⟨hletter, hhead, hword⟩ := hspelled code hcode
  -- A number has no letter of a code, and all other values start with another character.
  have hnumber : ∀ s : String, (∀ c ∈ s.toList, Text.ofNumeral c = true) → s ≠ code := by
    rintro s hs rfl
    obtain ⟨c, hc, hno⟩ := List.any_eq_true.1 hletter
    rw [hs c hc] at hno
    cases hno
  have hstart : ∀ (c : Char) (s t : String), c ∈ ['[', '\x7b', 'C'] → s.toList = [c] →
      s ++ t ≠ code := by
    rintro c s t hc hs rfl
    refine hhead ?_
    rw [String.toList_append, hs]
    exact List.mem_map_of_mem hc
  cases v with
  | text s => exact beq_iff_eq.symm
  | null =>
    refine iff_of_false ?_ Bool.false_ne_true
    rintro rfl
    exact hword (.head _)
  | bool b =>
    refine iff_of_false ?_ Bool.false_ne_true
    rintro rfl
    cases b with
    | false => exact hword (.tail _ (.tail _ (.head _)))
    | true => exact hword (.tail _ (.head _))
  | int i => exact iff_of_false (hnumber (toString i) (Text.ofNumeral_toString i)) Bool.false_ne_true
  | float x => exact iff_of_false (hnumber x.render x.ofNumeral_render) Bool.false_ne_true
  | list items =>
    have hplain : (list items).plain = "[" ++ commaJoin (quotedItems items) ++ "]" := rfl
    rw [hplain, String.append_assoc]
    exact iff_of_false (hstart '[' _ _ (by decide) rfl) Bool.false_ne_true
  | object members =>
    have hplain : (object members).plain =
        "\x7b" ++ commaJoin (quotedMembers members) ++ "\x7d" := rfl
    rw [hplain, String.append_assoc]
    exact iff_of_false (hstart '\x7b' _ _ (by decide) rfl) Bool.false_ne_true
  | column record =>
    obtain ⟨ordinal, name, dataType, connected, payload⟩ := record
    have hplain : ∃ fields, (column ⟨ordinal, name, dataType, connected, payload⟩).plain =
        "C" ++ "olumnRecord(ordinal_hint=" ++ toString ordinal ++ fields := by
      refine ⟨", name=" ++ quoted name ++ ", data_type=" ++ quoted dataType ++ ", connected=" ++
        (if connected then "True" else "False") ++ ", raw_json=" ++ quoted payload ++ ")", ?_⟩
      simp only [← String.append_assoc]
      rfl
    obtain ⟨fields, hplain⟩ := hplain
    rw [hplain, String.append_assoc, String.append_assoc]
    exact iff_of_false (hstart 'C' _ _ (by decide) rfl) Bool.false_ne_true

/-! ## What the layout makes of it -/

namespace Layout

/-- A type field stands for a special code just if it holds the text of that code. -/
theorem codeOf_eq {code : String} (hcode : code ∈ Datasource.special) (v : Value) :
    (codeOf v).getD "" = code ↔ v.isText code = true := by
  unfold codeOf
  split
  · exact v.plain_eq_code hcode
  · next hempty =>
    refine iff_of_false ?_ fun htext => hempty ?_
    · rintro rfl
      revert hcode
      decide
    · obtain rfl := Value.eq_text htext
      exact (show ∀ code ∈ Datasource.special, (Value.text code).isTrue = true by decide) code hcode

/-- What a target type changes, by the value of its field. -/
theorem targetOverlay_cases (v : Value) :
    (v.isText Datasource.mysql = true ∧
      targetOverlay ((codeOf v).getD "") = [("write_mode", 24)]) ∨
    (v.isText Datasource.hive = true ∧ targetOverlay ((codeOf v).getD "") =
      [("other_statement", 0), ("dt_partitions", 24), ("write_mode", 24)]) ∨
    (v.isText Datasource.elasticsearch = true ∧ targetOverlay ((codeOf v).getD "") =
      [("other_statement", 0), ("es_params", 24), ("es_params_half", 12), ("target_table", 0)]) ∨
    ((∀ code ∈ Datasource.special, v.isText code = false) ∧
      targetOverlay ((codeOf v).getD "") = []) := by
  have hcode : ∀ code ∈ Datasource.special, v.isText code = true → (codeOf v).getD "" = code :=
    fun code hmem => (codeOf_eq hmem v).2
  by_cases hmysql : v.isText Datasource.mysql = true
  · rw [hcode _ (by decide) hmysql]
    exact .inl ⟨hmysql, rfl⟩
  by_cases hhive : v.isText Datasource.hive = true
  · rw [hcode _ (by decide) hhive]
    exact .inr (.inl ⟨hhive, rfl⟩)
  by_cases hsink : v.isText Datasource.elasticsearch = true
  · rw [hcode _ (by decide) hsink]
    exact .inr (.inr (.inl ⟨hsink, rfl⟩))
  have hnone : ∀ code ∈ Datasource.special, v.isText code = false := by
    intro code hmem
    simp only [Datasource.special, List.mem_cons, List.not_mem_nil, or_false] at hmem
    rcases hmem with rfl | rfl | rfl
    · exact Bool.eq_false_iff.2 hmysql
    · exact Bool.eq_false_iff.2 hhive
    · exact Bool.eq_false_iff.2 hsink
  refine .inr (.inr (.inr ⟨hnone, ?_⟩))
  unfold targetOverlay
  rw [if_neg fun h => hmysql ((codeOf_eq (by decide) v).1 h),
    if_neg fun h => hhive ((codeOf_eq (by decide) v).1 h),
    if_neg fun h => hsink ((codeOf_eq (by decide) v).1 h)]

/-- Outside the custom template, the field of the write modes has a weight just where the rule of
that field gives modes, and the field of the target table has none just where the target is the
single sink. -/
theorem weight_display {m : Model} (h : (m.get Keys.customConfig).isTrue = false) :
    (weight (spansOf m) "write_mode" ≠ 0 ↔ Template.writeModeRule.build m ≠ []) ∧
      (weight (spansOf m) "target_table" = 0 ↔ Mapping.isSingleSink m = true) := by
  have hsource : ∀ code, sourceOverlay code = [("where", 0), ("ds_partitions", 24)] ∨
      sourceOverlay code = [] := by
    intro code
    unfold sourceOverlay
    split
    · exact .inl rfl
    · exact .inr rfl
  have hsource := hsource ((codeOf (m.get Keys.sourceType)).getD "")
  have htarget := targetOverlay_cases (m.get Keys.targetType)
  unfold spansOf spans
  rw [if_neg (Bool.eq_false_iff.1 h)]
  simp only [Template.writeModeRule, Mapping.isSingleSink, Datasource.isSingleSink]
  generalize m.get Keys.targetType = target at *
  -- With the overlays written out, each pair of them is a table to look the two groups up in.
  rcases htarget with ⟨htext, htarget⟩ | ⟨htext, htarget⟩ | ⟨htext, htarget⟩ | ⟨hnone, htarget⟩
  · rw [htarget, Value.eq_text htext]
    rcases hsource with hsource | hsource <;> rw [hsource] <;> decide
  · rw [htarget, Value.eq_text htext]
    rcases hsource with hsource | hsource <;> rw [hsource] <;> decide
  · rw [htarget, Value.eq_text htext]
    rcases hsource with hsource | hsource <;> rw [hsource] <;> decide
  · rw [htarget, hnone Datasource.hive (by decide), hnone Datasource.mysql (by decide),
      hnone Datasource.elasticsearch (by decide)]
    rcases hsource with hsource | hsource <;> rw [hsource] <;> decide

end Layout

/-- A lookup ends with what its own fetch comes to, if it is not given up. -/
def Lookup.EndsItself (l : Lookup) (answer : Except Fault (Option LookupResult)) : Prop :=
  ∃ ending : Ending, answer = ending.answer l

namespace Template

variable (disabled : List String) {react : Reaction}

/-! ## The write modes -/

/-- The write modes depend on the type of the target alone. -/
theorem build_writeModeRule {m m' : Model}
    (h : m'.value? Keys.targetType = m.value? Keys.targetType) :
    writeModeRule.build m' = writeModeRule.build m := by
  simp only [writeModeRule, Model.get_congr h]

/-- The write mode is no rung. -/
theorem writeMode_ne_key (side : Side) (rung : Rung) : Keys.writeMode ≠ rung.key side := by
  cases side <;> cases rung <;> decide

/-- The choices that a rung fills are those of a rung. -/
theorem rung_of_choiceKeys {side : Side} {rung : Rung} {field : String}
    (h : field ∈ (rung.trigger side).choiceKeys) : ∃ side' rung', field = Rung.key rung' side' := by
  cases rung with
  | type =>
    refine ⟨side, .place, ?_⟩
    cases side <;> exact List.mem_singleton.1 h
  | place =>
    refine ⟨side, .table, ?_⟩
    cases side <;> exact List.mem_singleton.1 h
  | table => cases side <;> exact absurd h List.not_mem_nil

/-- The lookups of the table of the task form are lookups of the task form. -/
theorem known_of_issues {l : Lookup} (h : (plan disabled react).Issues l) : l.Known := by
  obtain ⟨d, hd, ⟨t, ht, hl⟩ | ⟨t, ht, hl⟩⟩ := h
  · obtain ⟨side, rung, hkey, rfl⟩ := exists_rung disabled hd ht
    rw [hkey] at hl
    exact .inl ⟨side, rung, hl.trigger, hl.fetch, hl.compareKey, hl.value⟩
  · obtain ⟨side, sourcesOnly, hkey, rfl⟩ := exists_loader disabled hd ht
    rw [hkey] at hl
    exact .inr ⟨side, hl.trigger, ⟨sourcesOnly, _, hl.fetch⟩, hl.compareKey⟩

/-- The field of the write modes. -/
def modeField : Descriptor :=
  { laidOut Keys.writeMode .select "write_mode" "Write mode" with
    required := true, choiceRule := some writeModeRule }

/-- The field of the write modes is found under its key. -/
theorem find?_modeField : (plan disabled react).find? modeField.key = some modeField :=
  rfl

/-- The write modes offered are derived from the type of the target. -/
def derivedModes : Derived modeField (List Choice) :=
  Derived.choices rfl (by decide) fun _ _ hm => build_writeModeRule (hm _ (.head _))

/-- The inputs of the write modes are spared by a form that spares the type of the target. -/
theorem spares_modes (hreact : react.Spares Keys.targetType) :
    ∀ key ∈ derivedModes.inputs, (plan disabled react).react.Spares key := by
  intro key hkey
  obtain rfl := List.mem_singleton.1 hkey
  exact hreact

/-- The choices of a rung are no write modes. -/
theorem quiet_rung (side : Side) (rung : Rung) : derivedModes.Quiet (rung.key side) :=
  fun heq => absurd heq.symm (writeMode_ne_key side rung)

/-- The choices that a lookup of the task form offers are no write modes. -/
theorem quiet_answer {l : Lookup} (hl : l.Known) (ending : Ending) {result : LookupResult}
    (h : ending.answer l = .ok (some result)) :
    ∀ field ∈ Assoc.keys result.choices, derivedModes.Quiet field := by
  intro field hfield
  obtain ⟨catalog, -, hrun⟩ := Ending.answer_eq_some h
  rcases Lookup.shape hl hrun with ⟨side, rung, choices, -, rfl⟩ | ⟨side, t, -, rfl⟩
  · obtain rfl := List.mem_singleton.1 hfield
    exact quiet_rung side rung
  · exact absurd hfield List.not_mem_nil

/-- The choices that a trigger of the task form empties are no write modes. -/
theorem quiet_trigger (key : String) (t : Trigger) (h : (plan disabled react).trigger? key = some t) :
    ∀ field ∈ t.choiceKeys, derivedModes.Quiet field := by
  intro field hfield
  obtain ⟨side, rung, -, rfl⟩ := trigger?_eq_some disabled react h
  obtain ⟨side', rung', rfl⟩ := rung_of_choiceKeys hfield
  exact quiet_rung side' rung'

variable {m : Model} {r : Resolver}

/-- In every state that the task form reaches, the write modes offered are those of the type of the
target. -/
theorem modes_reaches (hreact : react.Spares Keys.targetType)
    (h : (plan disabled react).Reaches Lookup.EndsItself m r) : derivedModes.Current r := by
  refine Derived.current_reaches (find?_modeField disabled) (spares_modes disabled hreact)
    (quiet_trigger disabled) ?_ h
  rintro l answer result hl ⟨ending, rfl⟩ hanswer
  exact quiet_answer (known_of_issues disabled hl) ending hanswer

/-- Derived state never goes out of date. Whatever the table, the model that the form started from and
the ends that its lookups came to, a field has the weight that the layout gives for the present
values of its inputs, or its fixed span. In the task form with its own lookups, the write modes
offered are those of the present type of the target; outside the custom template the field of the
write modes is shown just where there are modes to choose from, and the field of the target table is
hidden just where the target is the single sink. -/
theorem display_reaches :
    (∀ (plan : Plan) (m : Model) (r : Resolver), (∀ key ∈ Keys.layout, plan.react.Spares key) →
      plan.Reaches (fun _ _ => True) m r → ∀ d ∈ plan.descriptors, ∃ f, r.facet d.key = .ok f ∧
        f.weight = match d.group with
          | some group => Layout.weight (Layout.spans (r.model.get Keys.customConfig).isTrue
              (Layout.codeOf (r.model.get Keys.sourceType))
              (Layout.codeOf (r.model.get Keys.targetType))) group
          | none => d.span) ∧
    ∀ (disabled : List String) (react : Reaction) (m : Model) (r : Resolver),
      (∀ key ∈ Keys.layout, react.Spares key) →
      (plan disabled react).Reaches Lookup.EndsItself m r →
      ∃ modes table, r.facet Keys.writeMode = .ok modes ∧ r.facet Keys.targetTable = .ok table ∧
        modes.choices = writeModeRule.build r.model ∧
        ((r.model.get Keys.customConfig).isTrue = false →
          (modes.visible = true ↔ modes.choices ≠ []) ∧
          (table.visible = false ↔ Mapping.isSingleSink r.model = true)) := by
  refine ⟨fun plan m r hspares hr d hd => Plan.weight_reaches hspares hr hd, ?_⟩
  intro disabled react m r hspares hr
  -- The two fields, with the weights that the layout gives their groups.
  have hweight : ∀ {key group : String} {d : Descriptor}, (plan disabled react).find? key = some d →
      d.group = some group → ∃ f, r.facet key = .ok f ∧
        f.weight = Layout.weight (Layout.spansOf r.model) group := by
    intro key group d hfind hgroup
    obtain rfl : d.key = key := by simpa using List.find?_some hfind
    obtain ⟨f, hf, hweight⟩ := Plan.weight_reaches hspares hr (List.mem_of_find?_eq_some hfind)
    rw [Descriptor.weight, hgroup] at hweight
    exact ⟨f, hf, hweight⟩
  obtain ⟨tableField, htableFind, htableGroup⟩ : ∃ d, (plan disabled react).find? Keys.targetTable =
      some d ∧ d.group = some "target_table" := ⟨_, rfl, rfl⟩
  obtain ⟨modes, hmodes, hmodesWeight⟩ := hweight (find?_modeField disabled) rfl
  obtain ⟨table, htable, htableWeight⟩ := hweight htableFind htableGroup
  have hchoices : modes.choices = writeModeRule.build r.model := by
    have hoffered := modes_reaches disabled (hspares Keys.targetType (by decide)) hr
    have hfacet : Assoc.valueOf? r.facets modeField.key = some modes :=
      (Resolver.facet_eq_ok hr.fits.ready).1 hmodes
    rw [Derived.Current, hfacet] at hoffered
    exact Option.some.inj hoffered
  refine ⟨modes, table, hmodes, htable, hchoices, fun hstandard => ?_⟩
  obtain ⟨hmodesShown, htableHidden⟩ := Layout.weight_display hstandard
  unfold Facet.visible
  rw [hmodesWeight, htableWeight, hchoices, bne_iff_ne, bne_eq_false_iff_eq]
  exact ⟨hmodesShown, htableHidden⟩

/-- A model that uses the custom template and has a partitioned target. -/
def customHive : Model :=
  ⟨[(Keys.customConfig, { value := .bool true }),
    (Keys.targetType, { value := .text Datasource.hive })]⟩

/-- The form of such a model when the custom template is switched off. -/
def switchedOff : Resolver :=
  ((plan [] Form.follow).change ((plan [] Form.follow).begun customHive) Keys.customConfig
    (.bool false) true).1

/-- The switch shows the field of the write modes at the full width that its group has, with the
modes of the partitioned type. -/
theorem display_switchedOff :
    (∃ f, switchedOff.facet Keys.writeMode = .ok f ∧ f.weight = 24) ∧
      ∃ modes, switchedOff.facet Keys.writeMode = .ok modes ∧ modes.choices = ruleModes ∧
        modes.visible = true := by
  have hspares : ∀ key ∈ Keys.layout, (plan [] Form.follow).react.Spares key := by
    intro key hkey
    refine Form.follow_listsOnly.spares key fun side hside => ?_
    revert hkey
    rw [hside]
    cases side <;> decide
  have hreaches : ∀ ends, (plan [] Form.follow).Reaches ends customHive switchedOff := fun ends =>
    .change _ _ _ (.start (setUp_plan [] Form.follow customHive))
  have hstandard : (switchedOff.model.get Keys.customConfig).isTrue = false := by decide +kernel
  have hsource : Layout.codeOf (switchedOff.model.get Keys.sourceType) = none := by decide +kernel
  have htarget : switchedOff.model.get Keys.targetType = .text Datasource.hive :=
    Value.eq_text (by decide +kernel)
  obtain ⟨hweight, hdisplay⟩ := display_reaches
  constructor
  · obtain ⟨f, hf, hlaid⟩ := hweight _ _ _ hspares (hreaches _) modeField
      (List.mem_of_find?_eq_some (find?_modeField []))
    rw [hstandard, hsource, htarget] at hlaid
    exact ⟨f, hf, hlaid⟩
  · obtain ⟨modes, table, hmodes, -, hchoices, hshown⟩ :=
      hdisplay [] Form.follow _ _ hspares (hreaches _)
    have hrule : writeModeRule.build switchedOff.model = ruleModes := by
      simp only [writeModeRule, htarget]
      rfl
    rw [hrule] at hchoices
    refine ⟨modes, hmodes, hchoices, (hshown hstandard).1.2 ?_⟩
    rw [hchoices]
    exact List.cons_ne_nil _ _

end Template

end SyncForm
