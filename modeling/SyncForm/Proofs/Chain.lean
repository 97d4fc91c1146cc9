import SyncForm.Form
import SyncForm.Proofs.Cascading
import SyncForm.Proofs.Run
import SyncForm.Template

/-!
# The trigger chains of the task form

Both sides of the task form have a chain of three triggers: the type, the instance below it and the
table below the instance. A `Rung` is a place in a chain; the key of a rung is reset, and its
lookups are superseded, when the key of a rung above it changes. `Template.cascade_rung` computes
the cascade of every rung, and the lemmas after it say what the cascade does to each key, list of
choices and generation of the form, of either side.
-/

namespace SyncForm

namespace Side

/-- The key of the type of a side. -/
def typeKey : Side → String
  | source => Keys.sourceType
  | target => Keys.targetType

/-- The key of the instance of a side. -/
def instanceKey : Side → String
  | source => Keys.sourceInstance
  | target => Keys.targetInstance

/-- The key of the table of a side. -/
def tableKey : Side → String
  | source => Keys.sourceTable
  | target => Keys.targetTable

/-- The key of the partitions of a side. -/
def partitionsKey : Side → String
  | source => Keys.sourcePartitions
  | target => Keys.targetPartitions

end Side

/-- A place in the chain of a side, from the top down. -/
inductive Rung where
  | type
  | place
  | table
  deriving DecidableEq

namespace Rung

/-- How far down the chain a rung is. -/
def depth : Rung → Nat
  | type => 0
  | place => 1
  | table => 2

/-- Different rungs are not equally far down. -/
theorem depth_inj {rung rung' : Rung} (h : rung.depth = rung'.depth) : rung = rung' := by
  cases rung <;> cases rung' <;> first | rfl | cases h

/-- The key of a rung. -/
def key : Rung → Side → String
  | type, side => side.typeKey
  | place, side => side.instanceKey
  | table, side => side.tableKey

/-- The lookup that a change of a rung triggers. -/
def trigger : Rung → Side → Trigger
  | type, .source =>
    Template.instanceTrigger Keys.sourceType Keys.sourceInstance [Keys.sourceInstance]
  | type, .target =>
    Template.instanceTrigger Keys.targetType Keys.targetInstance
      [Keys.targetInstance, Keys.writeMode]
  | place, .source =>
    Template.tableTrigger Keys.sourceInstance Keys.sourceTable [Keys.sourceTable] none
  | place, .target =>
    Template.tableTrigger Keys.targetInstance Keys.targetTable
      [Keys.targetTable, Keys.targetColumns] (some Keys.targetType)
  | table, .source =>
    Template.columnTrigger Keys.sourceInstance Keys.sourceTable Keys.sourceColumns
      Keys.sourcePartitions
  | table, .target =>
    Template.columnTrigger Keys.targetInstance Keys.targetTable Keys.targetColumns
      Keys.targetPartitions

/-- The cascade of a rung. -/
def steps : Rung → Side → List CascadeStep
  | table, side => [.reset side.key, .reset side.partitionsKey]
  | place, side =>
    [.empty side.tableKey, .reset side.tableKey, .supersede side.tableKey, .reset side.key,
      .reset side.partitionsKey]
  | type, side =>
    [.empty side.instanceKey, .reset side.instanceKey, .supersede side.instanceKey,
      .empty side.tableKey, .reset side.tableKey, .supersede side.tableKey, .reset side.key,
      .reset side.partitionsKey] ++
      match side with
      | .source => []
      | .target => [.reset Keys.writeMode]

end Rung

namespace Template

/-- The fields of the task form have distinct keys. -/
theorem nodup_keys (disabled : List String) : ((taskForm disabled).map (·.key)).Nodup := by
  have hkeys : (taskForm disabled).map (·.key) = (taskForm []).map (·.key) := rfl
  rw [hkeys]
  decide +kernel

/-- The plan of the task form. -/
def plan (disabled : List String) (react : Reaction) : Plan :=
  { descriptors := taskForm disabled, distinct := nodup_keys disabled, react }

variable (disabled : List String) (react : Reaction)

/-- The fields that trigger a lookup are the rungs of the two chains. -/
theorem triggers_taskForm :
    (taskForm disabled).filterMap (fun d => d.trigger.map fun t => (d.key, t)) =
      [(Rung.type.key .source, Rung.type.trigger .source),
        (Rung.place.key .source, Rung.place.trigger .source),
        (Rung.table.key .source, Rung.table.trigger .source),
        (Rung.type.key .target, Rung.type.trigger .target),
        (Rung.place.key .target, Rung.place.trigger .target),
        (Rung.table.key .target, Rung.table.trigger .target)] :=
  rfl

/-- A field that triggers a lookup is a rung. -/
theorem exists_rung {d : Descriptor} {t : Trigger} (hd : d ∈ taskForm disabled)
    (ht : d.trigger = some t) : ∃ side rung, d.key = Rung.key rung side ∧ t = rung.trigger side := by
  have hmem : (d.key, t) ∈
      (taskForm disabled).filterMap (fun d => d.trigger.map fun t => (d.key, t)) :=
    List.mem_filterMap.2 ⟨d, hd, by simp [ht]⟩
  rw [triggers_taskForm] at hmem
  simp only [List.mem_cons, Prod.mk.injEq, List.not_mem_nil, or_false] at hmem
  rcases hmem with h | h | h | h | h | h
  · exact ⟨.source, .type, h⟩
  · exact ⟨.source, .place, h⟩
  · exact ⟨.source, .table, h⟩
  · exact ⟨.target, .type, h⟩
  · exact ⟨.target, .place, h⟩
  · exact ⟨.target, .table, h⟩

/-- The trigger of a rung is found under its key. -/
theorem trigger?_key (side : Side) (rung : Rung) :
    (plan disabled react).trigger? (rung.key side) = some (rung.trigger side) := by
  cases side <;> cases rung <;> rfl

/-- A key under which a trigger is found is the key of a rung. -/
theorem trigger?_eq_some {key : String} {t : Trigger}
    (h : (plan disabled react).trigger? key = some t) :
    ∃ side rung, key = Rung.key rung side ∧ t = rung.trigger side := by
  obtain ⟨d, hfind, ht⟩ := Option.bind_eq_some_iff.1 h
  have hkey : d.key = key := by simpa using List.find?_some hfind
  rw [← hkey]
  exact exists_rung disabled (List.mem_of_find?_eq_some hfind) ht

/-- Different rungs have different keys. -/
theorem key_inj {side side' : Side} {rung rung' : Rung} :
    rung.key side = rung'.key side' ↔ side = side' ∧ rung = rung' := by
  cases side <;> cases side' <;> cases rung <;> cases rung' <;> decide

/-! ## The cascades -/

/-- The lists of columns and partitions and the write mode trigger nothing. -/
theorem trigger?_produced (side : Side) :
    (plan disabled react).trigger? side.key = none ∧
      (plan disabled react).trigger? side.partitionsKey = none ∧
      (plan disabled react).trigger? Keys.writeMode = none := by
  cases side <;> exact ⟨rfl, rfl, rfl⟩

/-- Below a table a cascade resets the columns and the partitions. -/
theorem cascadeFrom_lists (side : Side) (seen stack : List String)
    (hcolumns : seen.contains side.key = false)
    (hpartitions : seen.contains side.partitionsKey = false) :
    (plan disabled react).cascadeFrom seen (side.key :: side.partitionsKey :: stack) =
      .reset side.key :: .reset side.partitionsKey ::
        (plan disabled react).cascadeFrom (side.partitionsKey :: side.key :: seen) stack := by
  obtain ⟨h1, h2, -⟩ := trigger?_produced disabled react side
  have hboth : (side.key :: seen).contains side.partitionsKey = false := by
    rw [List.contains_cons, hpartitions]
    cases side <;> decide
  rw [Plan.cascadeFrom_plain _ _ _ hcolumns h1, Plan.cascadeFrom_plain _ _ _ hboth h2]

/-- From a table on a cascade resets the table and what is below it. -/
theorem cascadeFrom_table (side : Side) (seen stack : List String)
    (htable : seen.contains side.tableKey = false) (hcolumns : seen.contains side.key = false)
    (hpartitions : seen.contains side.partitionsKey = false) :
    (plan disabled react).cascadeFrom seen (side.tableKey :: stack) =
      .reset side.tableKey :: .supersede side.tableKey :: .reset side.key ::
        .reset side.partitionsKey :: (plan disabled react).cascadeFrom
          (side.partitionsKey :: side.key :: side.tableKey :: seen) stack := by
  have hlists := cascadeFrom_lists disabled react side (side.tableKey :: seen) stack
    (by rw [List.contains_cons, hcolumns]; cases side <;> decide)
    (by rw [List.contains_cons, hpartitions]; cases side <;> decide)
  have htrigger := trigger?_key disabled react side .table
  rw [Plan.cascadeFrom_trigger _ _ _ htable htrigger]
  cases side <;> exact congrArg (_ :: _ :: ·) hlists

/-- The cascade of a rung. -/
theorem cascade_rung (side : Side) (rung : Rung) :
    (plan disabled react).cascade (rung.key side) (rung.trigger side) = rung.steps side := by
  have hinstance := trigger?_key disabled react side .place
  obtain ⟨-, -, hmode⟩ := trigger?_produced disabled react side
  cases rung with
  | table =>
    have hlists := cascadeFrom_lists disabled react side [side.tableKey] []
      (by cases side <;> decide) (by cases side <;> decide)
    rw [Plan.cascadeFrom] at hlists
    cases side <;> exact hlists
  | place =>
    cases side with
    | source =>
      have htable := cascadeFrom_table disabled react .source [Keys.sourceInstance] []
        (by decide) (by decide) (by decide)
      rw [Plan.cascadeFrom] at htable
      exact congrArg (_ :: ·) htable
    | target =>
      have htable := cascadeFrom_table disabled react .target [Keys.targetInstance]
        [Keys.targetColumns] (by decide) (by decide) (by decide)
      have htail : (plan disabled react).cascadeFrom
          [Keys.targetPartitions, Keys.targetColumns, Keys.targetTable, Keys.targetInstance]
          [Keys.targetColumns] = [] := by
        rw [Plan.cascadeFrom_seen _ _ _ (by decide), Plan.cascadeFrom]
      exact congrArg (_ :: ·) (htable.trans (congrArg (_ :: _ :: _ :: _ :: ·) htail))
  | type =>
    cases side with
    | source =>
      have htable := cascadeFrom_table disabled react .source
        [Keys.sourceInstance, Keys.sourceType] [] (by decide) (by decide) (by decide)
      rw [Plan.cascadeFrom] at htable
      have hfrom := Plan.cascadeFrom_trigger _ [Keys.sourceType] [] (by decide) hinstance
      exact congrArg (_ :: ·) (hfrom.trans (congrArg (_ :: _ :: _ :: ·) htable))
    | target =>
      have htable := cascadeFrom_table disabled react .target
        [Keys.targetInstance, Keys.targetType] [Keys.targetColumns, Keys.writeMode]
        (by decide) (by decide) (by decide)
      have htail : (plan disabled react).cascadeFrom
          [Keys.targetPartitions, Keys.targetColumns, Keys.targetTable, Keys.targetInstance,
            Keys.targetType] [Keys.targetColumns, Keys.writeMode] = [.reset Keys.writeMode] := by
        rw [Plan.cascadeFrom_seen _ _ _ (by decide),
          Plan.cascadeFrom_plain _ _ _ (by decide) hmode, Plan.cascadeFrom]
      have hfrom := Plan.cascadeFrom_trigger _ [Keys.targetType] [Keys.writeMode] (by decide)
        hinstance
      exact congrArg (_ :: ·) (hfrom.trans (congrArg (_ :: _ :: _ :: ·)
        (htable.trans (congrArg (_ :: _ :: _ :: _ :: ·) htail))))

/-- Only the write mode has a rule for its choices. -/
theorem ruleFree {field : String} (h : field ≠ Keys.writeMode) :
    (plan disabled react).RuleFree field := by
  intro d hd
  have hkey : d.key = field := by simpa using List.find?_some hd
  have hrules : (taskForm disabled).filterMap
      (fun d => d.choiceRule.map fun rule => (d.key, rule)) =
        [(Keys.writeMode, writeModeRule)] := rfl
  cases hrule : d.choiceRule with
  | none => rfl
  | some rule =>
    have hmem : (d.key, rule) ∈ (taskForm disabled).filterMap
        (fun d => d.choiceRule.map fun rule => (d.key, rule)) :=
      List.mem_filterMap.2 ⟨d, List.mem_of_find?_eq_some hd, by simp [hrule]⟩
    rw [hrules] at hmem
    exact absurd (hkey.symm.trans (Prod.mk.inj (List.mem_singleton.1 hmem)).1) h

/-- The default of a rung is the empty text. -/
theorem usual_key (side : Side) (rung : Rung) :
    (plan disabled react).usual (rung.key side) = .text "" := by
  cases side <;> cases rung <;> rfl

/-- The default of the columns and of the partitions is the empty list. -/
theorem usual_lists (side : Side) :
    (plan disabled react).usual side.key = .list [] ∧
      (plan disabled react).usual side.partitionsKey = .list [] := by
  cases side <;> exact ⟨rfl, rfl⟩

end Template

namespace Rung

/-- A rung stands above another one of the same chain. -/
def Above (side : Side) (rung : Rung) (side' : Side) (other : Rung) : Prop :=
  side = side' ∧ rung.depth < other.depth

/-- A rung stands above another one of the same chain or is that rung. -/
def AtOrAbove (side : Side) (rung : Rung) (side' : Side) (other : Rung) : Prop :=
  side = side' ∧ rung.depth ≤ other.depth

instance (side side' : Side) (rung other : Rung) : Decidable (Above side rung side' other) :=
  inferInstanceAs (Decidable (_ ∧ _))

instance (side side' : Side) (rung other : Rung) : Decidable (AtOrAbove side rung side' other) :=
  inferInstanceAs (Decidable (_ ∧ _))

variable (side side' : Side) (rung other : Rung)

/-- A cascade resets the rungs below its own. -/
theorem resets_key :
    (rung.steps side).any (·.resets (other.key side')) = decide (Above side rung side' other) := by
  cases side <;> cases side' <;> cases rung <;> cases other <;> decide

/-- A cascade resets the lists of its side. -/
theorem resets_lists :
    (rung.steps side).any (·.resets side'.key) = decide (side = side') ∧
      (rung.steps side).any (·.resets side'.partitionsKey) = decide (side = side') := by
  cases side <;> cases side' <;> cases rung <;> decide

/-- A cascade empties the choices of the rungs below its own. -/
theorem empties_key :
    (rung.steps side).any (·.empties (other.key side')) = decide (Above side rung side' other) := by
  cases side <;> cases side' <;> cases rung <;> cases other <;> decide

/-- A cascade supersedes the lookups of the rungs below its own. -/
theorem supersedes_key :
    (rung.steps side).countP (·.supersedes (other.key side')) =
      if Above side rung side' other then 1 else 0 := by
  cases side <;> cases side' <;> cases rung <;> cases other <;> decide

/-- A cascade supersedes no loader. -/
theorem supersedes_loader :
    (rung.steps side).countP (·.supersedes (loaderName side'.typeKey)) = 0 := by
  cases side <;> cases side' <;> cases rung <;> decide

/-- A loader is named like no rung. -/
theorem loaderName_ne_key : loaderName side'.typeKey ≠ rung.key side := by
  cases side <;> cases side' <;> cases rung <;> decide

end Rung

end SyncForm
