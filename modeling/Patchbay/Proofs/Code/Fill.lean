import Patchbay.Code.Template
import Patchbay.Proofs.Names

namespace Patchbay

/-! What filling a template asks for.

Which holes a template has does not depend on the names handed out so far, so `Template.reads` lists
them without running anything.  Filling works the list off from left to right; when every hole can
be resolved, the result is the template with its holes replaced, `Template.resolve`.
-/

namespace Code

/-- A hole of a template, wherever the template is filled. -/
inductive Read where
  | portlet (wiring : Wiring) (id : String)
  | own (key : String)
  | shared (namespaceName key : String)
deriving DecidableEq, Repr

mutual

/-- The holes of a template in the order in which filling resolves them. -/
def Template.reads : Template → List Read
  | .list _ items => readsOf items
  | .code parts | .lines parts | .raw parts | .ahead parts => readsOf parts
  | .var type name value | .const type name value => type.reads ++ (name.reads ++ readsOf value)
  | .func name args result body =>
      name.reads ++ (readsOfArgs args ++ (result.reads ++ readsOf body))
  | .record name members => name.reads ++ readsOfMembers members
  | .portlet wiring id => [.portlet wiring id]
  | .own key => [.own key]
  | .shared namespaceName key => [.shared namespaceName key]
  | .absent | .text _ | .number _ | .single _ | .integer _ | .wide _ | .flag _ | .missing _
  | .state | .floatArg .. | .textArg .. => []

def readsOf : List Template → List Read
  | [] => []
  | template :: rest => template.reads ++ readsOf rest

def readsOfArgs : List (Template × Template × Option (List Template)) → List Read
  | [] => []
  | (type, name, none) :: rest => type.reads ++ (name.reads ++ readsOfArgs rest)
  | (type, name, some value) :: rest =>
      type.reads ++ (name.reads ++ (readsOf value ++ readsOfArgs rest))

def readsOfMembers : List (Template × Template × List Template) → List Read
  | [] => []
  | (type, name, value) :: rest =>
      type.reads ++ (name.reads ++ (readsOf value ++ readsOfMembers rest))

end

/-- What the holes of a template are replaced by: the names of an index and the wiring of a scope. -/
abbrev Naming := NameSpace → String → String

mutual

/-- A template with its holes replaced. -/
def Template.resolve (scope : Scope) (naming : Naming) : Template → Part
  | .absent => .absent
  | .text value => .text value
  | .number value => .number value
  | .single value => .single value
  | .integer value => .integer value
  | .wide value => .wide value
  | .flag value => .flag value
  | .list kind items => .list kind (resolveAll scope naming items)
  | .missing kind => .missing kind
  | .code parts => .sequence (Code.code (resolveAll scope naming parts))
  | .lines parts => .sequence (Code.lines (resolveAll scope naming parts))
  | .raw parts => .sequence (resolveAll scope naming parts)
  | .var type name value =>
      Code.var (type.resolve scope naming).plainText (name.resolve scope naming).plainText
        (resolveAll scope naming value)
  | .const type name value =>
      Code.const (type.resolve scope naming).plainText (name.resolve scope naming).plainText
        (resolveAll scope naming value)
  | .func name args result body =>
      .ofFunction (Code.func (name.resolve scope naming).plainText (resolveArgs scope naming args)
        (result.resolve scope naming).plainText (resolveAll scope naming body))
  | .record name members =>
      .record (name.resolve scope naming).plainText (resolveMembers scope naming members)
  | .portlet wiring id => .text ((scope.portlets wiring).getD id "")
  | .state => .text scope.state
  | .own key => .text (naming scope.space key)
  | .shared namespaceName key => .text (naming (.module namespaceName) key)
  | .ahead _ => .absent
  | .floatArg name fallback => .number (scope.node.floatArg name fallback)
  | .textArg name fallback => .text (scope.node.textArg name fallback)

def resolveAll (scope : Scope) (naming : Naming) : List Template → List Part
  | [] => []
  | template :: rest => template.resolve scope naming :: resolveAll scope naming rest

def resolveArgs (scope : Scope) (naming : Naming) :
    List (Template × Template × Option (List Template)) → List Slot
  | [] => []
  | (type, name, none) :: rest =>
      arg (type.resolve scope naming).plainText (name.resolve scope naming).plainText ::
        resolveArgs scope naming rest
  | (type, name, some value) :: rest =>
      argWithDefault (type.resolve scope naming).plainText (name.resolve scope naming).plainText
        (resolveAll scope naming value) :: resolveArgs scope naming rest

def resolveMembers (scope : Scope) (naming : Naming) :
    List (Template × Template × List Template) → List Slot
  | [] => []
  | (type, name, value) :: rest =>
      member (type.resolve scope naming).plainText (name.resolve scope naming).plainText
        (resolveAll scope naming value) :: resolveMembers scope naming rest

end

/-! ## Filling -/

/-- A hole together with what it is resolved from. -/
inductive Ask where
  | portlet (scope : Scope) (wiring : Wiring) (id : String)
  | name (space : NameSpace) (key : String)

def Read.ask (scope : Scope) : Read → Ask
  | .portlet wiring id => .portlet scope wiring id
  | .own key => .name scope.space key
  | .shared namespaceName key => .name (.module namespaceName) key

namespace Ask

/-- Whether a hole can be resolved. -/
def Granted (names : NameIndex) : Ask → Prop
  | .portlet scope wiring id => ∃ code, (scope.portlets wiring).get? id = some code
  | .name space _ => names.Opens space

def fault : Ask → Fault
  | .portlet scope wiring id => .unknownName id (scope.owner wiring)
  | .name space _ => NameIndex.closedFault space

/-- The name that a hole hands out, if it does. -/
def handle? : Ask → Option (NameSpace × String)
  | .portlet .. => none
  | .name space key => some (space, key)

theorem granted_iff_of_akin {before after : NameIndex} (akin : before.Akin after) {ask : Ask} :
    ask.Granted after ↔ ask.Granted before := by
  cases ask with
  | portlet scope wiring id => exact Iff.rfl
  | name space key => exact akin.opens_iff

end Ask

/-- Whether all of some holes can be resolved. -/
def Granted (names : NameIndex) (scope : Scope) (reads : List Read) : Prop :=
  ∀ read ∈ reads, (read.ask scope).Granted names

/-- The names that some holes hand out. -/
def handlesOf (scope : Scope) (reads : List Read) : List (NameSpace × String) :=
  (reads.map (Read.ask scope)).filterMap Ask.handle?

theorem granted_iff_of_akin {before after : NameIndex} (akin : before.Akin after) {scope : Scope}
    {reads : List Read} : Granted after scope reads ↔ Granted before scope reads :=
  forall₂_congr fun _ _ => Ask.granted_iff_of_akin akin

/-- Either all of some holes can be resolved, or one of them is the first that cannot be. -/
theorem granted_or_refused (names : NameIndex) (asks : List Ask) : (∀ ask ∈ asks, ask.Granted names) ∨
    ∃ earlier ask later, asks = earlier ++ ask :: later ∧ (∀ other ∈ earlier, other.Granted names) ∧
      ¬ ask.Granted names := by
  induction asks with
  | nil => exact .inl fun _ member => absurd member List.not_mem_nil
  | cons first rest ih =>
      by_cases held : first.Granted names
      · rcases ih with all | ⟨earlier, ask, later, rfl, granted, refused⟩
        · exact .inl (List.forall_mem_cons.mpr ⟨held, all⟩)
        · exact .inr ⟨first :: earlier, ask, later, rfl, List.forall_mem_cons.mpr ⟨held, granted⟩, refused⟩
      · exact .inr ⟨[], first, rest, rfl, fun _ member => absurd member List.not_mem_nil, held⟩

/-- A computation that resolves some holes.  When all of them can be resolved it hands out their
names, and its value is known; otherwise it records the miss of the first that cannot be. -/
structure Fills (filling : Fill α) (asks : Naming → List Ask) (value : Naming → α) : Prop where
  missed : ∀ ledger fault, ledger.miss = some fault → (filling.run ledger).2.miss = some fault
  granted : ∀ ledger, (∀ ask ∈ asks ledger.names.nameOf, ask.Granted ledger.names) →
    ∃ names, filling.run ledger = (value ledger.names.nameOf, { ledger with names }) ∧
      ledger.names.Took names ((asks ledger.names.nameOf).filterMap Ask.handle?)
  refused : ∀ ledger earlier ask later, ledger.miss = none →
    asks ledger.names.nameOf = earlier ++ ask :: later →
    (∀ other ∈ earlier, other.Granted ledger.names) → ¬ ask.Granted ledger.names →
    (filling.run ledger).2.miss = some ask.fault

namespace Fills

variable {α β : Type} {first : Fill α} {next : α → Fill β} {asks : Naming → List Ask}
  {others : α → Naming → List Ask} {value : Naming → α} {nextValue : α → Naming → β} {scope : Scope}

theorem pure (value : α) : Fills (Pure.pure value) (fun _ => []) fun _ => value where
  missed _ _ held := held
  granted ledger _ := ⟨ledger.names, rfl, .refl _⟩
  refused _ _ _ _ _ split := by simp at split

theorem bind (one : Fills first asks value)
    (two : ∀ result, Fills (next result) (others result) (nextValue result)) :
    Fills (first >>= next) (fun naming => asks naming ++ others (value naming) naming)
      fun naming => nextValue (value naming) naming where
  missed ledger fault held := (two _).missed _ _ (one.missed ledger fault held)
  granted ledger granted := by
    obtain ⟨between, ran, took⟩ := one.granted ledger fun ask member =>
      granted ask (List.mem_append_left _ member)
    have later := (two (value ledger.names.nameOf)).granted { ledger with names := between }
    rw [show ({ ledger with names := between } : Ledger).names = between from rfl, took.nameOf] at later
    obtain ⟨after, finished, tookLater⟩ := later fun ask member =>
      (Ask.granted_iff_of_akin took.toAkin).mpr (granted ask (List.mem_append_right _ member))
    refine ⟨after, ?_, by simpa using took.trans tookLater⟩
    change (next (first.run ledger).1).run (first.run ledger).2 = _
    rw [ran]
    exact finished
  refused ledger earlier ask later clean split granted refused := by
    change ((next (first.run ledger).1).run (first.run ledger).2).2.miss = _
    have second : ∀ between, others (value ledger.names.nameOf) ledger.names.nameOf = between ++ ask :: later →
        (∀ other ∈ asks ledger.names.nameOf ++ between, other.Granted ledger.names) →
        ((next (first.run ledger).1).run (first.run ledger).2).2.miss = some ask.fault := by
      intro between split granted
      obtain ⟨names, ran, took⟩ := one.granted ledger fun other member =>
        granted other (List.mem_append_left _ member)
      have continued := (two (value ledger.names.nameOf)).refused { ledger with names } between ask later clean
      rw [show ({ ledger with names } : Ledger).names = names from rfl, took.nameOf] at continued
      rw [ran]
      refine continued split (fun other member => ?_) fun held => ?_
      · exact (Ask.granted_iff_of_akin took.toAkin).mpr (granted other (List.mem_append_right _ member))
      · exact refused ((Ask.granted_iff_of_akin took.toAkin).mp held)
    rcases List.append_eq_append_iff.mp split with ⟨between, rfl, rest⟩ | ⟨between, own, rest⟩
    · exact second between rest granted
    · cases between with
      | nil => exact second [] rest.symm (by simpa [own] using granted)
      | cons head tail =>
          obtain ⟨rfl, rfl⟩ := List.cons.inj rest
          exact (two _).missed _ _ (one.refused ledger earlier ask tail clean own granted refused)

theorem map (one : Fills first asks value) (change : α → β) :
    Fills (first >>= fun result => Pure.pure (change result)) asks fun naming =>
      change (value naming) := by
  have both : Fills (first >>= fun result => Pure.pure (change result)) _ _ :=
    one.bind fun result => pure (change result)
  simpa using both

theorem name (space : NameSpace) (key : String) (result : String → α) :
    Fills (do
      let (name, ledger) := (← get).read space key
      set ledger
      return result name) (fun _ => [.name space key]) fun naming => result (naming space key) where
  missed ledger fault held := by
    change (ledger.read space key).2.miss = _
    unfold Ledger.read
    split
    · exact held
    · simp [Ledger.recordMiss, held]
  granted ledger granted := by
    obtain ⟨names, read, took⟩ := NameIndex.read_eq_ok key (granted (.name space key) (by simp))
    refine ⟨names, ?_, took⟩
    change (result (ledger.read space key).1, (ledger.read space key).2) = _
    simp [Ledger.read, read]
  refused ledger earlier ask later clean split _ refused := by
    obtain ⟨_, ⟨⟩⟩ | ⟨_, ⟨⟩⟩ := List.append_eq_singleton_iff.mp split.symm
    change (ledger.read space key).2.miss = _
    simp [Ledger.read, NameIndex.read_eq_error key refused, Ledger.recordMiss, clean, Ask.fault]

theorem portlet (wiring : Wiring) (id : String) :
    Fills (do
      let (code, ledger) := (← get).readPortlet scope wiring id
      set ledger
      return Part.text code) (fun _ => [.portlet scope wiring id]) fun _ =>
        Part.text ((scope.portlets wiring).getD id "") where
  missed ledger fault held := by
    change (ledger.readPortlet scope wiring id).2.miss = _
    unfold Ledger.readPortlet
    split
    · exact held
    · simp [Ledger.recordMiss, held]
  granted ledger granted := by
    obtain ⟨code, bound⟩ := granted (.portlet scope wiring id) (by simp)
    refine ⟨ledger.names, ?_, .refl _⟩
    change (Part.text (ledger.readPortlet scope wiring id).1,
      (ledger.readPortlet scope wiring id).2) = _
    simp [Ledger.readPortlet, bound, Table.getD]
  refused ledger earlier ask later clean split _ refused := by
    obtain ⟨_, ⟨⟩⟩ | ⟨_, ⟨⟩⟩ := List.append_eq_singleton_iff.mp split.symm
    have unbound : (scope.portlets wiring).get? id = none :=
      Option.eq_none_iff_forall_ne_some.mpr (not_exists.mp refused)
    change (ledger.readPortlet scope wiring id).2.miss = _
    simp [Ledger.readPortlet, unbound, Ledger.recordMiss, clean, Ask.fault]

end Fills

mutual

/-- Filling a template works off its holes and gives the template with its holes replaced. -/
theorem Template.fill_fills (scope : Scope) : (template : Template) →
    Fills (template.fill scope) (fun _ => template.reads.map (Read.ask scope)) (template.resolve scope)
  | .absent | .text _ | .number _ | .single _ | .integer _ | .wide _ | .flag _ | .missing _
  | .state | .floatArg .. | .textArg .. => .pure _
  | .list kind items => (fillAll_fills scope items).map (Part.list kind)
  | .code parts => (fillAll_fills scope parts).map fun parts => Part.sequence (Code.code parts)
  | .lines parts => (fillAll_fills scope parts).map fun parts => Part.sequence (Code.lines parts)
  | .raw parts => (fillAll_fills scope parts).map Part.sequence
  | .var type name value => by
      simp only [Template.fill, Template.reads, List.map_append, Template.resolve]
      exact (type.fill_fills scope).bind fun _ => (name.fill_fills scope).bind fun _ =>
        (fillAll_fills scope value).map _
  | .const type name value => by
      simp only [Template.fill, Template.reads, List.map_append, Template.resolve]
      exact (type.fill_fills scope).bind fun _ => (name.fill_fills scope).bind fun _ =>
        (fillAll_fills scope value).map _
  | .func name args result body => by
      simp only [Template.fill, Template.reads, List.map_append, Template.resolve]
      exact (name.fill_fills scope).bind fun _ => (fillArgs_fills scope args).bind fun _ =>
        (result.fill_fills scope).bind fun _ => (fillAll_fills scope body).map _
  | .record name members => by
      simp only [Template.fill, Template.reads, List.map_append, Template.resolve]
      exact (name.fill_fills scope).bind fun _ => (fillMembers_fills scope members).map _
  | .portlet wiring id => .portlet wiring id
  | .own key => .name scope.space key _
  | .shared namespaceName key => .name (.module namespaceName) key _
  | .ahead parts => (fillAll_fills scope parts).map fun _ => Part.absent

theorem fillAll_fills (scope : Scope) : (templates : List Template) →
    Fills (fillAll scope templates) (fun _ => (readsOf templates).map (Read.ask scope))
      fun naming => resolveAll scope naming templates
  | [] => .pure _
  | template :: rest => by
      simp only [fillAll, readsOf, List.map_append, resolveAll]
      exact (template.fill_fills scope).bind fun _ => (fillAll_fills scope rest).map _

theorem fillArgs_fills (scope : Scope) :
    (args : List (Template × Template × Option (List Template))) →
      Fills (fillArgs scope args) (fun _ => (readsOfArgs args).map (Read.ask scope))
        fun naming => resolveArgs scope naming args
  | [] => .pure _
  | (type, name, none) :: rest => by
      simp only [fillArgs, readsOfArgs, List.map_append, resolveArgs]
      exact (type.fill_fills scope).bind fun _ => (name.fill_fills scope).bind fun _ =>
        (fillArgs_fills scope rest).map _
  | (type, name, some value) :: rest => by
      simp only [fillArgs, readsOfArgs, List.map_append, resolveArgs]
      exact (type.fill_fills scope).bind fun _ => (name.fill_fills scope).bind fun _ =>
        (fillAll_fills scope value).bind fun _ => (fillArgs_fills scope rest).map _

theorem fillMembers_fills (scope : Scope) :
    (members : List (Template × Template × List Template)) →
      Fills (fillMembers scope members) (fun _ => (readsOfMembers members).map (Read.ask scope))
        fun naming => resolveMembers scope naming members
  | [] => .pure _
  | (type, name, value) :: rest => by
      simp only [fillMembers, readsOfMembers, List.map_append, resolveMembers]
      exact (type.fill_fills scope).bind fun _ => (name.fill_fills scope).bind fun _ =>
        (fillAll_fills scope value).bind fun _ => (fillMembers_fills scope rest).map _

end

theorem Template.fillSequence_fills (scope : Scope) (template : Template) :
    Fills (template.fillSequence scope) (fun _ => template.reads.map (Read.ask scope)) fun naming =>
      (template.resolve scope naming).toSequence :=
  (template.fill_fills scope).map Part.toSequence

def FunctionTemplate.reads (template : FunctionTemplate) : List Read :=
  template.name.reads ++ (readsOfArgs template.args ++
    (template.result.reads ++ readsOf template.body))

def FunctionTemplate.resolve (scope : Scope) (template : FunctionTemplate) (naming : Naming) :
    Function :=
  Code.func (template.name.resolve scope naming).plainText (resolveArgs scope naming template.args)
    (template.result.resolve scope naming).plainText (resolveAll scope naming template.body)

theorem FunctionTemplate.fill_fills (scope : Scope) (template : FunctionTemplate) :
    Fills (template.fill scope) (fun _ => template.reads.map (Read.ask scope)) (template.resolve scope) := by
  simp only [FunctionTemplate.fill, FunctionTemplate.reads, List.map_append]
  exact (template.name.fill_fills scope).bind fun _ =>
    (fillArgs_fills scope template.args).bind fun _ =>
      (template.result.fill_fills scope).bind fun _ => (fillAll_fills scope template.body).map _

def RecordTemplate.reads (template : RecordTemplate) : List Read :=
  template.name.reads ++ readsOfMembers template.members

def RecordTemplate.resolve (scope : Scope) (template : RecordTemplate) (naming : Naming) : Record :=
  ⟨(template.name.resolve scope naming).plainText, resolveMembers scope naming template.members⟩

theorem RecordTemplate.fill_fills (scope : Scope) (template : RecordTemplate) :
    Fills (template.fill scope) (fun _ => template.reads.map (Read.ask scope)) (template.resolve scope) := by
  simp only [RecordTemplate.fill, RecordTemplate.reads, List.map_append]
  exact (template.name.fill_fills scope).bind fun _ => (fillMembers_fills scope template.members).map _

namespace Fills

variable {α β : Type} {items : List α} {asksOf : α → Naming → List Ask}
  {valueOf : α → Naming → β} {step : α → Fill β}

theorem mapM (steps : ∀ item ∈ items, Fills (step item) (asksOf item) (valueOf item)) :
    Fills (items.mapM step) (fun naming => items.flatMap fun item => asksOf item naming) fun naming =>
      items.map fun item => valueOf item naming := by
  induction items with
  | nil => exact .pure []
  | cons item rest ih =>
      simp only [List.mapM_cons, List.flatMap_cons]
      have later := ih fun other member => steps other (List.mem_cons_of_mem _ member)
      exact (steps item (by simp)).bind fun value => later.map (value :: ·)

theorem optionMapM {item : Option α} (steps : ∀ value, item = some value →
    Fills (step value) (asksOf value) (valueOf value)) :
    Fills (item.mapM step) (fun naming => item.toList.flatMap fun value => asksOf value naming)
      fun naming => item.map fun value => valueOf value naming := by
  cases item with
  | none => exact .pure none
  | some value =>
      simp only [Option.toList_some, List.flatMap_singleton]
      exact (steps value rfl).map some

theorem foldlM {step : β → α → Fill β} {initial : β} {next : Naming → β → α → β}
    (steps : ∀ state, ∀ item ∈ items, Fills (step state item) (asksOf item) fun naming =>
      next naming state item) :
    Fills (items.foldlM step initial) (fun naming => items.flatMap fun item => asksOf item naming)
      fun naming => items.foldl (next naming) initial := by
  induction items generalizing initial with
  | nil => exact .pure initial
  | cons item rest ih =>
      simp only [List.foldlM_cons, List.flatMap_cons, List.foldl_cons]
      exact (steps initial item (by simp)).bind fun state =>
        ih fun state other member => steps state other (List.mem_cons_of_mem _ member)

end Fills

end Code

end Patchbay
