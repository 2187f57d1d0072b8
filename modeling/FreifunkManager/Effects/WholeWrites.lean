import Mathlib.Data.List.Infix
import Mathlib.Data.List.Nodup
import Mathlib.Logic.Function.Basic

/-! # Editors of one document

A server keeps a document, and each editor has a copy of it. An edit changes the copy and sends the whole copy; the
server replaces its document by what it gets and sends it to all editors, which replace their copies. So an edit
undoes every change that had not reached its editor when it was made (`Sound.edits`).
-/

namespace Effects.WholeWrites

/-- An edit on its way, with what its editor had taken over before. -/
structure Edit (δ : Type) where
  doc : δ
  heard : List δ
deriving DecidableEq

structure Editor (δ : Type) where
  store : δ
  heard : List δ := []
  inbox : List δ := []
  outbox : List (Edit δ) := []
  /-- How many of its edits the server has taken. -/
  taken : ℕ := 0

structure Office (ι δ : Type) where
  doc : δ
  editors : ι → Editor δ
  handled : List (ι × Edit δ) := []

variable {ι δ : Type}

/-- A change is applied to the copy that is sent; the own copy may be changed at once or stay as it is. -/
def Editor.edit (editor : Editor δ) (change : δ → δ) (inPlace : Bool) : Editor δ :=
  { editor with
    store := if inPlace then change editor.store else editor.store
    outbox := editor.outbox ++ [{ doc := change editor.store, heard := editor.heard }] }

def Editor.deliver (editor : Editor δ) (doc : δ) (rest : List δ) : Editor δ :=
  { editor with store := doc, heard := editor.heard ++ [doc], inbox := rest }

/-- A document is on its way to the editor. -/
def Editor.hear (editor : Editor δ) (doc : δ) : Editor δ := { editor with inbox := editor.inbox ++ [doc] }

/-- The server takes an edit and sends it to all editors. -/
def Office.accept [DecidableEq ι] (office : Office ι δ) (peer : ι) (edit : Edit δ) (rest : List (Edit δ)) :
    Office ι δ where
  doc := edit.doc
  editors other :=
    if other = peer then
      { (office.editors other).hear edit.doc with outbox := rest, taken := (office.editors other).taken + 1 }
    else (office.editors other).hear edit.doc
  handled := office.handled ++ [(peer, edit)]

theorem Office.accept_self [DecidableEq ι] (office : Office ι δ) (peer : ι) (edit : Edit δ) (rest : List (Edit δ)) :
    (office.accept peer edit rest).editors peer =
      { (office.editors peer).hear edit.doc with outbox := rest, taken := (office.editors peer).taken + 1 } :=
  if_pos rfl

theorem Office.accept_of_ne [DecidableEq ι] (office : Office ι δ) {peer other : ι} (different : other ≠ peer)
    (edit : Edit δ)
    (rest : List (Edit δ)) : (office.accept peer edit rest).editors other = (office.editors other).hear edit.doc :=
  if_neg different

/-- The same editor, if only a part of its documents is looked at. -/
def Editor.map {ε : Type} (part : δ → ε) (editor : Editor δ) : Editor ε where
  store := part editor.store
  heard := editor.heard.map part
  inbox := editor.inbox.map part
  outbox := editor.outbox.map fun edit => ⟨part edit.doc, edit.heard.map part⟩
  taken := editor.taken

theorem Editor.map_edit {ε : Type} (part : δ → ε) (editor : Editor δ) {change : δ → δ} (change' : ε → ε)
    (same : ∀ doc, part (change doc) = change' (part doc)) (inPlace : Bool) :
    (editor.edit change inPlace).map part = (editor.map part).edit change' inPlace := by
  cases inPlace <;> simp [Editor.edit, Editor.map, same]

theorem Editor.map_deliver {ε : Type} (part : δ → ε) (editor : Editor δ) (doc : δ) (rest : List δ) :
    (editor.deliver doc rest).map part = (editor.map part).deliver (part doc) (rest.map part) := by
  simp [Editor.deliver, Editor.map]

theorem Editor.map_hear {ε : Type} (part : δ → ε) (editor : Editor δ) (doc : δ) :
    (editor.hear doc).map part = (editor.map part).hear (part doc) := by
  simp [Editor.hear, Editor.map]

def Office.set [DecidableEq ι] (office : Office ι δ) (peer : ι) (editor : Editor δ) : Office ι δ :=
  { office with editors := Function.update office.editors peer editor }

@[simp] theorem Office.set_self [DecidableEq ι] (office : Office ι δ) (peer : ι) (editor : Editor δ) :
    (office.set peer editor).editors peer = editor := Function.update_self ..

theorem Office.set_of_ne [DecidableEq ι] (office : Office ι δ) {peer other : ι} (different : other ≠ peer)
    (editor : Editor δ) :
    (office.set peer editor).editors other = office.editors other := Function.update_of_ne different ..

/-- A step of an office in which every editor makes one change. -/
inductive Step [DecidableEq ι] (change : ι → δ → δ) (office : Office ι δ) : Office ι δ → Prop
  | edit (peer : ι) (inPlace : Bool) (first : (office.editors peer).outbox = [] ∧ (office.editors peer).taken = 0) :
      Step change office (office.set peer ((office.editors peer).edit (change peer) inPlace))
  | accept {peer : ι} {edit : Edit δ} {rest : List (Edit δ)} (next : (office.editors peer).outbox = edit :: rest) :
      Step change office (office.accept peer edit rest)
  | deliver {peer : ι} {doc : δ} {rest : List δ} (next : (office.editors peer).inbox = doc :: rest) :
      Step change office (office.set peer ((office.editors peer).deliver doc rest))

/-- The latest of some documents. -/
def latest (initial : δ) (docs : List δ) : δ := docs.getLast?.getD initial

/-- An editor of whose edit the server has not heard, when these documents were sent to all. -/
inductive Editing (change : δ → δ) (initial : δ) (news : List δ) (editor : Editor δ) : Prop
  | reading (store : editor.store = latest initial editor.heard) (news : editor.heard ++ editor.inbox = news)
      (outbox : editor.outbox = []) (taken : editor.taken = 0)
  | sending (edit : Edit δ) (doc : edit.doc = change (latest initial edit.heard)) (old : edit.heard <+: news)
      (outbox : editor.outbox = [edit]) (taken : editor.taken = 0)

/-- The documents that were sent to all editors. -/
def Office.news (office : Office ι δ) : List δ := office.handled.map (·.2.doc)

/-- Every edit is a change of what its editor had been sent last, and the latest one is the document. -/
structure Sound (change : ι → δ → δ) (initial : δ) (office : Office ι δ) : Prop where
  doc : office.doc = latest initial office.news
  editing : ∀ peer, peer ∉ office.handled.map Prod.fst → Editing (change peer) initial office.news (office.editors peer)
  done : ∀ peer ∈ office.handled.map Prod.fst, (office.editors peer).outbox = [] ∧ (office.editors peer).taken = 1
  once : (office.handled.map Prod.fst).Nodup
  edits : ∀ earlier peer edit later, office.handled = earlier ++ (peer, edit) :: later →
    edit.doc = change peer (latest initial edit.heard) ∧ edit.heard <+: earlier.map (·.2.doc)

section Sound

variable {change : ι → δ → δ} {initial : δ} {office after : Office ι δ}

theorem latest_concat (docs : List δ) (doc : δ) : latest initial (docs ++ [doc]) = doc := by
  rw [latest, List.getLast?_concat, Option.getD_some]

/-- An editor that has not edited yet is reading. -/
theorem Sound.reading (sound : Sound change initial office) {peer : ι}
    (first : (office.editors peer).outbox = [] ∧ (office.editors peer).taken = 0) :
    peer ∉ office.handled.map Prod.fst ∧ (office.editors peer).store = latest initial (office.editors peer).heard ∧
      (office.editors peer).heard ++ (office.editors peer).inbox = office.news := by
  have fresh : peer ∉ office.handled.map Prod.fst := by
    intro member
    have taken := (sound.done peer member).2
    omega
  cases sound.editing peer fresh with
  | reading store news => exact ⟨fresh, store, news⟩
  | sending edit _ _ outbox => exact absurd (first.1.symm.trans outbox) (List.cons_ne_nil _ _).symm

/-- The editor of the next edit is not done yet. -/
theorem Sound.sending (sound : Sound change initial office) {peer : ι} {edit : Edit δ} {rest : List (Edit δ)}
    (next : (office.editors peer).outbox = edit :: rest) : peer ∉ office.handled.map Prod.fst ∧ rest = [] ∧
      (office.editors peer).taken = 0 ∧ edit.doc = change peer (latest initial edit.heard) ∧
      edit.heard <+: office.news := by
  have fresh : peer ∉ office.handled.map Prod.fst := by
    intro member
    have outbox := (sound.done peer member).1
    exact List.cons_ne_nil _ _ (next.symm.trans outbox)
  cases sound.editing peer fresh with
  | reading _ _ outbox => exact absurd (next.symm.trans outbox) (List.cons_ne_nil _ _)
  | sending sent doc old outbox taken =>
    obtain ⟨rfl, rfl⟩ := List.cons.inj (next.symm.trans outbox)
    exact ⟨fresh, rfl, taken, doc, old⟩

/-! ### What a step does to one editor -/

section Editor

variable {own : δ → δ} {news : List δ} {editor : Editor δ}

theorem Editing.edit (store : editor.store = latest initial editor.heard) (heard : editor.heard ++ editor.inbox = news)
    (first : editor.outbox = [] ∧ editor.taken = 0) (inPlace : Bool) :
    Editing own initial news (editor.edit own inPlace) := by
  apply Editing.sending { doc := own editor.store, heard := editor.heard }
  · rw [store]
  · exact ⟨_, heard⟩
  · rw [Editor.edit, first.1, List.nil_append]
  · exact first.2

theorem Editing.hear (editing : Editing own initial news editor) (doc : δ) :
    Editing own initial (news ++ [doc]) (editor.hear doc) := by
  cases editing with
  | reading store before outbox taken =>
    exact .reading store (by rw [← before, List.append_assoc]; rfl) outbox taken
  | sending sent changed before outbox taken =>
    exact .sending sent changed (before.trans (List.prefix_append _ _)) outbox taken

theorem Editing.deliver (editing : Editing own initial news editor) {doc : δ} {rest : List δ}
    (next : editor.inbox = doc :: rest) : Editing own initial news (editor.deliver doc rest) := by
  cases editing with
  | reading store before outbox taken =>
    have whole : editor.heard ++ [doc] ++ rest = news := by
      rw [← before, next, List.append_assoc]
      rfl
    exact .reading (latest_concat _ _).symm whole outbox taken
  | sending sent changed before outbox taken => exact .sending sent changed before outbox taken

end Editor

theorem Sound.edit [DecidableEq ι] (sound : Sound change initial office) {peer : ι}
    (first : (office.editors peer).outbox = [] ∧ (office.editors peer).taken = 0) (inPlace : Bool) :
    Sound change initial (office.set peer ((office.editors peer).edit (change peer) inPlace)) := by
  obtain ⟨fresh, store, news⟩ := sound.reading first
  refine ⟨sound.doc, ?_, ?_, sound.once, sound.edits⟩
  · intro other missing
    rcases eq_or_ne other peer with rfl | different
    · rw [office.set_self]
      exact .edit store news first inPlace
    · rw [office.set_of_ne different]
      exact sound.editing other missing
  · intro other member
    have different : other ≠ peer := fun same => fresh (same ▸ member)
    rw [office.set_of_ne different]
    exact sound.done other member

theorem Sound.accept [DecidableEq ι] (sound : Sound change initial office) {peer : ι} {edit : Edit δ}
    {rest : List (Edit δ)}
    (next : (office.editors peer).outbox = edit :: rest) : Sound change initial (office.accept peer edit rest) := by
  obtain ⟨fresh, rfl, taken, doc, old⟩ := sound.sending next
  have news : (office.accept peer edit []).news = office.news ++ [edit.doc] := by
    rw [Office.news, Office.news, Office.accept, List.map_append]
    rfl
  have peers : (office.accept peer edit []).handled.map Prod.fst = office.handled.map Prod.fst ++ [peer] :=
    List.map_append
  refine ⟨?_, ?_, ?_, ?_, ?_⟩
  · rw [news, latest_concat]
    rfl
  · intro other missing
    rw [peers, List.mem_append, List.mem_singleton, not_or] at missing
    obtain ⟨missing, different⟩ := missing
    rw [news, office.accept_of_ne different]
    exact (sound.editing other missing).hear edit.doc
  · intro other member
    rw [peers, List.mem_append, List.mem_singleton] at member
    rcases eq_or_ne other peer with rfl | different
    · rw [office.accept_self]
      exact ⟨rfl, congrArg (· + 1) taken⟩
    · rw [office.accept_of_ne different]
      exact sound.done other (member.resolve_right different)
  · rw [peers, List.nodup_append]
    refine ⟨sound.once, List.nodup_singleton _, ?_⟩
    rintro other member _ new rfl
    exact fresh (List.mem_singleton.mp new ▸ member)
  · intro earlier other sent later split
    rcases List.eq_nil_or_concat' later with rfl | ⟨later, last, rfl⟩
    · obtain ⟨rfl, same⟩ := List.append_inj'
        (show office.handled ++ [(peer, edit)] = earlier ++ [(other, sent)] from split) rfl
      cases same
      exact ⟨doc, old⟩
    · apply sound.edits earlier other sent later
      have split : office.handled ++ [(peer, edit)] = (earlier ++ (other, sent) :: later) ++ [last] := by
        rw [List.append_assoc]
        exact split
      exact (List.append_inj' split rfl).1

theorem Sound.deliver [DecidableEq ι] (sound : Sound change initial office) {peer : ι} {doc : δ} {rest : List δ}
    (next : (office.editors peer).inbox = doc :: rest) :
    Sound change initial (office.set peer ((office.editors peer).deliver doc rest)) := by
  refine ⟨sound.doc, ?_, ?_, sound.once, sound.edits⟩
  · intro other missing
    rcases eq_or_ne other peer with rfl | different
    · rw [office.set_self]
      exact (sound.editing other missing).deliver next
    · rw [office.set_of_ne different]
      exact sound.editing other missing
  · intro other member
    rcases eq_or_ne other peer with rfl | different
    · rw [office.set_self]
      exact sound.done other member
    · rw [office.set_of_ne different]
      exact sound.done other member

theorem Sound.step [DecidableEq ι] (sound : Sound change initial office) (step : Step change office after) :
    Sound change initial after := by
  cases step with
  | edit peer inPlace first => exact sound.edit first inPlace
  | accept next => exact sound.accept next
  | deliver next => exact sound.deliver next

/-- After two edits the document is the second one's change, of the first edit if that had reached its editor. -/
theorem Sound.two (sound : Sound change initial office) {first second : ι} {edit edit' : Edit δ}
    (handled : office.handled = [(first, edit), (second, edit')]) : first ≠ second ∧ office.doc =
      change second (if edit'.heard = [] then initial else change first initial) := by
  obtain ⟨doc, old⟩ := sound.edits [] first edit [(second, edit')] handled
  obtain ⟨doc', old'⟩ := sound.edits [(first, edit)] second edit' [] handled
  have began : edit.heard = [] := List.prefix_nil.mp old
  have last : office.doc = edit'.doc := by
    rw [sound.doc, Office.news, handled]
    rfl
  constructor
  · have once := sound.once
    rw [handled] at once
    rintro rfl
    simp at once
  · rw [last, doc']
    congr 1
    split
    · next nothing => rw [nothing]; rfl
    · next something =>
      have whole : edit'.heard = [edit.doc] := by
        rcases List.prefix_cons_iff.mp old' with nothing | ⟨rest, same, nothing⟩
        · exact absurd nothing something
        · rw [same, List.prefix_nil.mp nothing]
      rw [whole, ← latest_concat [] (change first initial), doc, began]
      rfl

end Sound

end Effects.WholeWrites
