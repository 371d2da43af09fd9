import CapacityFabric.Model.Persistence

/-!
# What loading does

Two views of the loader: what every prefix of it keeps, however it ends, and what it
leaves when it gets to the end, which is what the file says.
-/

namespace CapacityFabric

namespace CapacityModel

namespace Loader

theorem run_bind {α β : Type} (l : Loader α) (k : α → Loader β) (s : LoadState) :
    (l >>= k).run s = (match (l.run s).1 with
      | .ok a => (k a).run (l.run s).2
      | .error e => (.error e, (l.run s).2)) := by
  change (ExceptT.bindCont k (l.run s).1 : StateM LoadState _) (l.run s).2 = _
  cases (l.run s).1 <;> rfl

theorem run_read {α : Type} (reader : BinaryReader α) (s : LoadState) :
    (Loader.read reader).run s = (match reader.run s.data with
      | none => (.error .rejected, s)
      | some (a, rest) => (.ok a, { s with data := rest })) := by
  change ExceptT.run (match reader.run s.data with
    | none => reject
    | some (a, rest) => do modify fun s => { s with data := rest }; return a : Loader α) s = _
  cases reader.run s.data <;> rfl

/-- The loader keeps the invariant of the model, however it ends. -/
def Preserves {α : Type} (Inv : CapacityModel → Prop) (l : Loader α) : Prop :=
  ∀ s, Inv s.model → Inv (l.run s).2.model

section Preserves

variable {α β : Type} {Inv : CapacityModel → Prop}

theorem Preserves.pure (a : α) : Preserves Inv (pure a : Loader α) := fun _ h => h

theorem Preserves.throw (e : LoadFailure) : Preserves Inv (throw e : Loader α) := fun _ h => h

theorem Preserves.bind {l : Loader α} {k : α → Loader β} (hl : Preserves Inv l)
    (hk : ∀ a, Preserves Inv (k a)) : Preserves Inv (l >>= k) := by
  intro s h
  have hs := hl s h
  rw [run_bind]
  cases (l.run s).1 with
  | error e => exact hs
  | ok a => exact hk a (l.run s).2 hs

theorem Preserves.read (reader : BinaryReader α) : Preserves Inv (Loader.read reader) := by
  intro s h
  rw [run_read]
  cases reader.run s.data <;> exact h

theorem Preserves.update {f : CapacityModel → CapacityModel} (hf : ∀ m, Inv m → Inv (f m)) :
    Preserves Inv (update f) := fun s h => hf s.model h

theorem Preserves.repeatTimes {body : Loader Unit} (hbody : Preserves Inv body) (n : ℕ) :
    Preserves Inv (repeatTimes n body) := by
  induction n with
  | zero => exact Preserves.pure ()
  | succ n ih => exact Preserves.bind hbody fun _ => ih

/-- Only what the reader can return is ever stored. -/
theorem Preserves.loadRecord {reader : BinaryReader (Except LoadFailure α)}
    {store : α → CapacityModel → CapacityModel}
    (hstore : Parsing.Returns reader fun x => ∀ a, x = .ok a → ∀ m, Inv m → Inv (store a m)) :
    Preserves Inv (loadRecord reader store) := by
  intro s h
  rw [Loader.loadRecord, run_bind, run_read]
  cases hread : reader.run s.data with
  | none => exact h
  | some p =>
    obtain ⟨_ | a, rest⟩ := p
    · exact h
    · exact hstore s.data _ rest hread a rfl s.model h

theorem Preserves.loadRecords_of_clear {Cleared : CapacityModel → Prop}
    {reader : BinaryReader (Except LoadFailure α)}
    {clear : CapacityModel → CapacityModel} {store : α → CapacityModel → CapacityModel}
    (hinv : ∀ m, Cleared m → Inv m) (hclear : ∀ m, Inv m → Cleared (clear m))
    (hstore : Parsing.Returns reader fun x =>
      ∀ a, x = .ok a → ∀ m, Cleared m → Cleared (store a m)) :
    Preserves Inv (loadRecords reader clear store) := by
  intro s h
  rw [Loader.loadRecords, run_bind, run_read]
  cases readCount.run s.data with
  | none => exact h
  | some p =>
    have hrecords := Preserves.repeatTimes (Preserves.loadRecord hstore) p.1
    exact hinv _ (hrecords ⟨clear s.model, p.2⟩ (hclear s.model h))

theorem Preserves.loadRecords {reader : BinaryReader (Except LoadFailure α)}
    {clear : CapacityModel → CapacityModel} {store : α → CapacityModel → CapacityModel}
    (hclear : ∀ m, Inv m → Inv (clear m))
    (hstore : Parsing.Returns reader fun x => ∀ a, x = .ok a → ∀ m, Inv m → Inv (store a m)) :
    Preserves Inv (loadRecords reader clear store) :=
  Preserves.loadRecords_of_clear (fun _ h => h) hclear hstore

theorem Preserves.atEnd : Preserves Inv Loader.atEnd := by
  refine Preserves.bind (fun _ h => h) fun s => ?_
  split_ifs
  · exact Preserves.pure ()
  · exact Preserves.throw _

/-- An invariant that does not look at the rest is kept if the first table keeps it. -/
theorem preserves_loadTables [A : Arithmetic] (hresources : Preserves Inv loadResources)
    (hreservations : ∀ m x y, Inv m → Inv { m with reservationGen := x, reservations := y })
    (hreleases : ∀ m x, Inv m → Inv { m with releases := x })
    (hhistory : ∀ m x, Inv m → Inv { m with forecastHistory := x })
    (hrecovered : ∀ m x, Inv m → Inv { m with recovered := x }) : Preserves Inv loadTables := by
  refine Preserves.bind hresources fun _ => ?_
  refine Preserves.bind (Preserves.loadRecords (fun m => hreservations m m.reservationGen _)
    (Parsing.Returns.of_forall fun _ _ _ m => hreservations m _ _)) fun _ => ?_
  refine Preserves.bind (Preserves.loadRecords (fun m => hreleases m _)
    (Parsing.Returns.of_forall fun _ _ _ m => hreleases m _)) fun _ => ?_
  refine Preserves.bind (Preserves.loadRecords (fun m => hhistory m _)
    (Parsing.Returns.of_forall fun _ _ _ m => hhistory m _)) fun _ => ?_
  exact Preserves.bind Preserves.atEnd fun _ => Preserves.update fun m => hrecovered m _

theorem preserves_loadResources [A : Arithmetic]
    (hresources : ∀ m x, Inv m → Inv { m with resources := x }) :
    Preserves Inv loadResources :=
  Preserves.loadRecords (fun m => hresources m _)
    (Parsing.Returns.of_forall fun _ _ _ m => hresources m _)

theorem preserves_loadBody [A : Arithmetic]
    (hepoch : ∀ m e, Inv m → Inv { m with epoch := e })
    (htables : Preserves Inv loadTables) : Preserves Inv loadBody :=
  Preserves.bind (Preserves.read _) fun _ =>
    Preserves.bind (Preserves.update fun m => hepoch m _) fun _ => htables

end Preserves

/-- The loader succeeds exactly where the reader does, reads as much, and takes the model
from `before` to `after` what was read. -/
def Decodes {α : Type} (before : CapacityModel → CapacityModel) (l : Loader Unit)
    (reader : BinaryReader α) (after : α → CapacityModel → CapacityModel) : Prop :=
  ∀ m data, match reader.run data with
    | some (a, rest) => l.run ⟨before m, data⟩ = (.ok (), ⟨after a m, rest⟩)
    | none => ∃ e, (l.run ⟨before m, data⟩).1 = .error e

def readAccepted {α : Type} (reader : BinaryReader (Except LoadFailure α)) : BinaryReader α := do
  match ← reader with
  | .error _ => failure
  | .ok a => return a

def readRecords {α : Type} (reader : BinaryReader (Except LoadFailure α)) :
    BinaryReader (List α) := do
  Parsing.readMany (readAccepted reader) (← readCount)

section Decodes

variable {α β : Type} {before : CapacityModel → CapacityModel}

theorem Decodes.bind {l l' : Loader Unit} {r : BinaryReader α} {k : α → BinaryReader β}
    {change : α → CapacityModel → CapacityModel} {after : β → CapacityModel → CapacityModel}
    (hl : Decodes id l r change) (hk : ∀ a, Decodes (fun m => change a (before m)) l' (k a) after) :
    Decodes before (l >>= fun _ => l') (r >>= k) after := by
  intro m data
  have hrun := hl (before m) data
  rw [run_bind, Parsing.run_bind]
  cases hread : r.run data with
  | none =>
    rw [hread] at hrun
    obtain ⟨e, he⟩ := hrun
    exact ⟨e, by rw [id_eq] at he; rw [he]⟩
  | some p =>
    rw [hread] at hrun
    rw [id_eq] at hrun
    rw [hrun]
    exact hk p.1 m p.2

theorem decodes_loadRecord (reader : BinaryReader (Except LoadFailure α))
    (store : α → CapacityModel → CapacityModel) :
    Decodes id (loadRecord reader store) (readAccepted reader) store := by
  intro m data
  rw [loadRecord, run_bind, run_read, readAccepted, Parsing.run_bind]
  cases reader.run data with
  | none => exact ⟨_, rfl⟩
  | some p =>
    obtain ⟨_ | a, rest⟩ := p
    · exact ⟨_, rfl⟩
    · rfl

theorem decodes_repeatTimes {body : Loader Unit} {r : BinaryReader α}
    {store : α → CapacityModel → CapacityModel} (hbody : Decodes id body r store) (n : ℕ) :
    Decodes before (repeatTimes n body) (Parsing.readMany r n)
      fun as m => as.foldl (fun m a => store a m) (before m) := by
  induction n generalizing before with
  | zero => exact fun m data => rfl
  | succ n ih =>
    refine hbody.bind fun a => ?_
    intro m data
    have hih : Decodes (fun m => store a (before m)) _ _ _ := ih
    have hrest := hih m data
    rw [Parsing.run_bind]
    cases hread : (Parsing.readMany r n).run data with
    | none => simpa [hread] using hrest
    | some p => simpa [hread] using hrest

theorem decodes_loadRecords (reader : BinaryReader (Except LoadFailure α))
    (clear : CapacityModel → CapacityModel) (store : α → CapacityModel → CapacityModel) :
    Decodes id (loadRecords reader clear store) (readRecords reader)
      fun as m => as.foldl (fun m a => store a m) (clear m) := by
  intro m data
  rw [loadRecords, run_bind, run_read, readRecords, Parsing.run_bind]
  cases readCount.run data with
  | none => exact ⟨_, rfl⟩
  | some p =>
    have hrest : Decodes clear _ _ _ := decodes_repeatTimes (decodes_loadRecord reader store) p.1
    exact hrest m p.2

end Decodes

end Loader

theorem load_preserves [A : Arithmetic] {Inv : CapacityModel → Prop}
    (hbody : Loader.Preserves Inv Loader.loadBody) {m : CapacityModel} (h : Inv m)
    (bytes : List UInt8) : Inv (m.load bytes).1 := by
  unfold load
  split_ifs
  · exact h
  · cases checkedBody bytes with
    | none => exact h
    | some body =>
      have hs := hbody ⟨m, body⟩ h
      rcases hrun : Loader.loadBody.run ⟨m, body⟩ with ⟨(_ | _) | _, s⟩ <;>
        simpa only [hrun] using hs

theorem load_table [A : Arithmetic] {Q : OrderedMap ResourceId ResourceInfo → Prop}
    {P : ResourceId → ResourceInfo → Prop}
    (hread : Parsing.Returns readSavedResource fun x => ∀ r, x = .ok r → P r.id r)
    (htable : ∀ t, (∀ id r, t.find? id = some r → P id r) → Q t)
    {m : CapacityModel} (h : Q m.resources) (bytes : List UInt8) :
    Q (m.load bytes).1.resources := by
  refine @load_preserves A (fun m' => Q m'.resources) ?_ m h bytes
  refine Loader.preserves_loadBody (fun _ _ h => h) (Loader.preserves_loadTables ?_
    (fun _ _ _ h => h) (fun _ _ h => h) (fun _ _ h => h) fun _ _ h => h)
  refine Loader.Preserves.loadRecords_of_clear (fun m' h => htable m'.resources h)
    (fun _ _ id r hr => absurd hr (by simp)) ?_
  intro data x rest hx a ha m' h id r hr
  change (m'.resources.insert a.id a).find? id = some r at hr
  rw [OrderedMap.find?_insert] at hr
  split_ifs at hr with heq
  · obtain rfl := Option.some.inj hr
    exact heq ▸ hread data x rest hx a ha
  · exact h id r hr

theorem load_keeps [A : Arithmetic] {γ : Type} {φ : CapacityModel → γ}
    (hepoch : ∀ m e, φ { m with epoch := e } = φ m)
    (hresources : ∀ m x, φ { m with resources := x } = φ m)
    (hreservations : ∀ m x y, φ { m with reservationGen := x, reservations := y } = φ m)
    (hreleases : ∀ m x, φ { m with releases := x } = φ m)
    (hhistory : ∀ m x, φ { m with forecastHistory := x } = φ m)
    (hrecovered : ∀ m x, φ { m with recovered := x } = φ m)
    (m : CapacityModel) (bytes : List UInt8) : φ (m.load bytes).1 = φ m := by
  refine @load_preserves A (fun m' => φ m' = φ m) ?_ m rfl bytes
  apply Loader.preserves_loadBody fun m' e h => (hepoch m' e).trans h
  apply Loader.preserves_loadTables
  · exact Loader.preserves_loadResources fun m' x h => (hresources m' x).trans h
  · exact fun m' x y h => (hreservations m' x y).trans h
  · exact fun m' x h => (hreleases m' x).trans h
  · exact fun m' x h => (hhistory m' x).trans h
  · exact fun m' x h => (hrecovered m' x).trans h

theorem load_resourceGen [A : Arithmetic] (m : CapacityModel) (bytes : List UInt8) :
    (m.load bytes).1.resourceGen = m.resourceGen := by
  apply load_keeps (φ := CapacityModel.resourceGen) <;> intros <;> rfl

theorem load_devices [A : Arithmetic] (m : CapacityModel) (bytes : List UInt8) :
    (m.load bytes).1.devices = m.devices := by
  apply load_keeps (φ := CapacityModel.devices) <;> intros <;> rfl

theorem load_sources [A : Arithmetic] (m : CapacityModel) (bytes : List UInt8) :
    (m.load bytes).1.sources = m.sources := by
  apply load_keeps (φ := CapacityModel.sources) <;> intros <;> rfl

end CapacityModel

end CapacityFabric
