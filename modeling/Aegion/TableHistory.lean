/-
Keyed tables inside a replayed store.  Where calls insert, update and delete,
every row still goes back to an insert.  If no call removes a row and rows only
move on to later versions of themselves, then in addition every insert leaves a
row behind, and no two inserts share a key.
-/
import Aegion.HistoryLaws
import Aegion.KeyedTable

namespace Aegion

open History

variable {Call : Type} {Reply : Call → Type} {σ ω Req Answer α κ : Type}

/-- A table of the store that calls insert into, update or delete from.  `Later`
says how an update may move a row on; it keeps the key. -/
structure Turnover (effect : Called Reply → σ → σ) (key : α → κ) where
  table : σ → Table key
  Inserts : Called Reply → σ → α → Prop
  Later : α → α → Prop
  refl : ∀ row, Later row row
  trans : ∀ {old row new}, Later old row → Later row new → Later old new
  key_eq : ∀ {old row}, Later old row → key row = key old
  backward : ∀ call store row, row ∈ (table (effect call store)).rows →
    (∃ old ∈ (table store).rows, Later old row) ∨ Inserts call store row

namespace Turnover

variable {effect : Called Reply → σ → σ} {key : α → κ}
variable (turnover : Turnover effect key) (store : σ)

/-- The entry records a call that inserts the row. -/
def InsertsAt (past : History Req Reply Answer) (entry : Entry Req Reply Answer) (row : α) : Prop :=
  ∃ call, entry.step = .called call ∧
    turnover.Inserts call (replay effect store past) row

variable {store}

/-- A row after an entry was there before, in an earlier version, or the entry
inserts it. -/
theorem backward_entry {entry : Entry Req Reply Answer} {past : History Req Reply Answer} {row : α}
    (hrow : row ∈ (turnover.table (replay effect store (entry :: past))).rows) :
    (∃ old ∈ (turnover.table (replay effect store past)).rows,
      turnover.Later old row) ∨ turnover.InsertsAt store past entry row := by
  cases hstep : entry.step with
  | answered answer =>
      simp only [replay, hstep] at hrow
      exact Or.inl ⟨row, hrow, turnover.refl row⟩
  | called call =>
      simp only [replay, hstep] at hrow
      rcases turnover.backward call _ row hrow with hold | hins
      · exact Or.inl hold
      · exact Or.inr ⟨call, hstep, hins⟩

/-- Every row is a later version of a row at an earlier point or was inserted
since. -/
theorem origin_since {base history : History Req Reply Answer} (hbase : base <:+ history) {row : α}
    (hrow : row ∈ (turnover.table (replay effect store history)).rows) :
    (∃ old ∈ (turnover.table (replay effect store base)).rows,
      turnover.Later old row) ∨
      ∃ entry past first, base <:+ past ∧ entry :: past <:+ history ∧
        turnover.InsertsAt store past entry first ∧
          turnover.Later first row := by
  induction history generalizing row with
  | nil =>
      rw [List.suffix_nil.mp hbase]
      exact Or.inl ⟨row, hrow, turnover.refl row⟩
  | cons entry past ih =>
      rcases List.suffix_cons_iff.mp hbase with rfl | hpast
      · exact Or.inl ⟨row, hrow, turnover.refl row⟩
      · rcases turnover.backward_entry hrow with ⟨old, hold, hlater⟩ | hins
        · rcases ih hpast hold with ⟨first, hfirst, hle⟩ |
              ⟨earlier, before, first, hbefore, hsuffix, hins, hle⟩
          · exact Or.inl ⟨first, hfirst, turnover.trans hle hlater⟩
          · exact Or.inr ⟨earlier, before, first, hbefore,
              hsuffix.trans (List.suffix_cons _ _), hins,
              turnover.trans hle hlater⟩
        · exact Or.inr ⟨entry, past, row, hpast, List.suffix_rfl, hins, turnover.refl row⟩

/-- From an empty table, every row goes back to an insert. -/
theorem origin_of_empty (hempty : (turnover.table store).rows = [])
    {history : History Req Reply Answer} {row : α}
    (hrow : row ∈ (turnover.table (replay effect store history)).rows) :
    ∃ thread request call past first,
      (⟨thread, request, .called call⟩ : Entry Req Reply Answer) :: past <:+
        history ∧ turnover.Inserts call (replay effect store past) first ∧
          turnover.Later first row := by
  rcases turnover.origin_since (List.nil_suffix) hrow with ⟨old, hold, -⟩ |
      ⟨⟨thread, request, step⟩, past, first, -, hentry, ⟨call, hstep, hins⟩, hlater⟩
  · rw [replay, hempty] at hold
    cases hold
  · cases hstep
    exact ⟨thread, request, call, past, first, hentry, hins, hlater⟩

/-- A row whose flag is down, under a key where it was up, was inserted in
between. -/
theorem renewed (flag : α → Bool) {k : κ}
    (hkept : ∀ {old row}, turnover.Later old row → flag old = true → flag row = true)
    {base history : History Req Reply Answer} (hbase : base <:+ history)
    (hup : ∀ row ∈ (turnover.table (replay effect store base)).rows,
      key row = k → flag row = true)
    {row : α} (hkey : key row = k) (hdown : flag row = false)
    (hrow : row ∈ (turnover.table (replay effect store history)).rows) :
    ∃ thread request call past first, base <:+ past ∧
      (⟨thread, request, .called call⟩ : Entry Req Reply Answer) :: past <:+
        history ∧ turnover.Inserts call (replay effect store past) first ∧
          key first = k := by
  rcases turnover.origin_since hbase hrow with ⟨old, hold, hlater⟩ |
      ⟨⟨thread, request, step⟩, past, first, hpast, hentry, ⟨call, hstep, hins⟩, hlater⟩
  · have hflag := hkept hlater (hup old hold ((turnover.key_eq hlater).symm.trans hkey))
    rw [hdown] at hflag
    cases hflag
  · cases hstep
    exact ⟨thread, request, call, past, first, hpast, hentry, hins,
      (turnover.key_eq hlater).symm.trans hkey⟩

end Turnover

/-- A table of the store that calls only insert into or update.  `Later` says
how an update may move a row on; it keeps the key. -/
structure Ledger (perform : ω → (c : Call) → σ → Reply c × σ)
    (effect : Called Reply → σ → σ) (key : α → κ) where
  table : σ → Table key
  Inserts : Called Reply → α → Prop
  Later : α → α → Prop
  refl : ∀ row, Later row row
  trans : ∀ {old row new}, Later old row → Later row new → Later old new
  key_eq : ∀ {old row}, Later old row → key row = key old
  backward : ∀ call store row, row ∈ (table (effect call store)).rows →
    (∃ old ∈ (table store).rows, Later old row) ∨ Inserts call row
  forward : ∀ call store old, old ∈ (table store).rows →
    ∃ row ∈ (table (effect call store)).rows, Later old row
  inserted : ∀ choice call store row, Inserts call row →
    call.2 = (perform choice call.1 store).1 →
      (∀ old ∈ (table store).rows, key old ≠ key row) ∧
        row ∈ (table (effect call store)).rows

namespace Ledger

variable {perform : ω → (c : Call) → σ → Reply c × σ}
variable {effect : Called Reply → σ → σ} {key : α → κ}
variable (ledger : Ledger perform effect key) {store : σ}

def InsertsAt (entry : Entry Req Reply Answer) (row : α) : Prop :=
  ∃ call, entry.step = .called call ∧ ledger.Inserts call row

/-- What holds with deletions holds without. -/
def turnover : Turnover effect key where
  table := ledger.table
  Inserts call _ := ledger.Inserts call
  Later := ledger.Later
  refl := ledger.refl
  trans := ledger.trans
  key_eq := ledger.key_eq
  backward := ledger.backward

theorem backward_entry {entry : Entry Req Reply Answer} {past : History Req Reply Answer} {row : α}
    (hrow : row ∈ (ledger.table (replay effect store (entry :: past))).rows) :
    (∃ old ∈ (ledger.table (replay effect store past)).rows,
      ledger.Later old row) ∨ ledger.InsertsAt entry row :=
  ledger.turnover.backward_entry hrow

theorem persists {past history : History Req Reply Answer} (hsuffix : past <:+ history) {old : α}
    (hold : old ∈ (ledger.table (replay effect store past)).rows) :
    ∃ row ∈ (ledger.table (replay effect store history)).rows,
      ledger.Later old row := by
  induction history with
  | nil =>
      rw [List.suffix_nil.mp hsuffix] at hold
      exact ⟨old, hold, ledger.refl old⟩
  | cons entry rest ih =>
      rcases List.suffix_cons_iff.mp hsuffix with rfl | hrest
      · exact ⟨old, hold, ledger.refl old⟩
      · obtain ⟨row, hrow, hlater⟩ := ih hrest
        cases hstep : entry.step with
        | answered answer =>
            exact ⟨row, by simpa only [replay, hstep] using hrow, hlater⟩
        | called call =>
            obtain ⟨next, hnext, hle⟩ := ledger.forward call _ row hrow
            exact ⟨next, by simpa only [replay, hstep] using hnext, ledger.trans hlater hle⟩

theorem origin_of_empty (hempty : (ledger.table store).rows = [])
    {history : History Req Reply Answer} {row : α}
    (hrow : row ∈ (ledger.table (replay effect store history)).rows) :
    ∃ thread request call past first,
      (⟨thread, request, .called call⟩ : Entry Req Reply Answer) :: past <:+
        history ∧ ledger.Inserts call first ∧ ledger.Later first row :=
  ledger.turnover.origin_of_empty hempty hrow

/-- Two rows with one key are versions of each other, whenever they are seen. -/
theorem later_or_later {first second history : History Req Reply Answer}
    (hfirst : first <:+ history) (hsecond : second <:+ history) {left right : α}
    (hleft : left ∈ (ledger.table (replay effect store first)).rows)
    (hright : right ∈ (ledger.table (replay effect store second)).rows)
    (hkey : key left = key right) : ledger.Later left right ∨ ledger.Later right left := by
  rcases List.suffix_or_suffix_of_suffix hfirst hsecond with hle | hle
  · obtain ⟨row, hrow, hlater⟩ := ledger.persists hle hleft
    have hsame := (ledger.table (replay effect store second)).row_eq_of_key_eq
      hrow hright ((ledger.key_eq hlater).trans hkey)
    exact Or.inl (hsame ▸ hlater)
  · obtain ⟨row, hrow, hlater⟩ := ledger.persists hle hright
    have hsame := (ledger.table (replay effect store first)).row_eq_of_key_eq
      hrow hleft ((ledger.key_eq hlater).trans hkey.symm)
    exact Or.inr (hsame ▸ hlater)

section Answered

variable {history : History Req Reply Answer}
variable (hanswers : Throughout (Answers perform effect store) history)

include hanswers

/-- An acknowledged insert found its key free and left its row in the table. -/
theorem insert_fresh {entry : Entry Req Reply Answer} {past : History Req Reply Answer} {row : α}
    (hsuffix : entry :: past <:+ history) (hins : ledger.InsertsAt entry row) :
    (∀ old ∈ (ledger.table (replay effect store past)).rows,
      key old ≠ key row) ∧
        row ∈ (ledger.table (replay effect store (entry :: past))).rows := by
  obtain ⟨call, hstep, hinserts⟩ := hins
  obtain ⟨choice, hreply⟩ := hanswers entry past hsuffix call hstep
  simpa only [replay, hstep] using ledger.inserted choice call _ row hinserts hreply

/-- An inserted row is still there later on, possibly in a later version. -/
theorem insert_persists {entry : Entry Req Reply Answer}
    {past later : History Req Reply Answer} {row : α}
    (hsuffix : entry :: past <:+ later) (hlater : later <:+ history)
    (hins : ledger.InsertsAt entry row) :
    ∃ row' ∈ (ledger.table (replay effect store later)).rows,
      ledger.Later row row' :=
  ledger.persists hsuffix
    (ledger.insert_fresh hanswers (hsuffix.trans hlater) hins).2

theorem insert_unique {entry entry' : Entry Req Reply Answer}
    {past past' : History Req Reply Answer} {row row' : α}
    (hsuffix : entry :: past <:+ history) (hsuffix' : entry' :: past' <:+ history)
    (hins : ledger.InsertsAt entry row) (hins' : ledger.InsertsAt entry' row')
    (hkey : key row = key row') : entry :: past = entry' :: past' := by
  have hclash : ∀ {e e' : Entry Req Reply Answer}
      {p p' : History Req Reply Answer} {r r' : α},
      e :: p <:+ p' → e' :: p' <:+ history → ledger.InsertsAt e r →
        ledger.InsertsAt e' r' → key r = key r' → False := by
    intro e e' p p' r r' hbefore hlast he he' hrr
    obtain ⟨hfresh, -⟩ := ledger.insert_fresh hanswers hlast he'
    obtain ⟨old, hold, hle⟩ := ledger.insert_persists hanswers hbefore
      ((List.suffix_cons _ _).trans hlast) he
    exact hfresh old hold ((ledger.key_eq hle).trans hrr)
  rcases entry_trichotomy hsuffix hsuffix' with heq | hlt | hlt
  · exact heq
  · exact (hclash hlt hsuffix' hins hins' hkey).elim
  · exact (hclash hlt hsuffix hins' hins hkey.symm).elim

/-- A row and an insert with the same key belong together. -/
theorem later_of_key_eq {entry : Entry Req Reply Answer}
    {past later : History Req Reply Answer} {first row : α}
    (hsuffix : entry :: past <:+ later) (hlater : later <:+ history)
    (hins : ledger.InsertsAt entry first)
    (hrow : row ∈ (ledger.table (replay effect store later)).rows)
    (hkey : key row = key first) : ledger.Later first row := by
  obtain ⟨row', hrow', hle⟩ :=
    ledger.insert_persists hanswers hsuffix hlater hins
  have hsame := (ledger.table (replay effect store later)).row_eq_of_key_eq
    hrow' hrow ((ledger.key_eq hle).trans hkey.symm)
  rw [← hsame]
  exact hle

omit hanswers in
/-- The first key was in the table when the second one was inserted. -/
def Precedes (store : σ) (history : History Req Reply Answer) (first second : κ) : Prop :=
  ∃ entry past row, entry :: past <:+ history ∧ ledger.InsertsAt entry row ∧
    key row = second ∧ ∃ old ∈ (ledger.table (replay effect store past)).rows, key old = first

theorem precedes_irrefl (k : κ) : ¬ ledger.Precedes store history k k := by
  rintro ⟨entry, past, row, hentry, hins, hkey, old, hold, hsame⟩
  exact (ledger.insert_fresh hanswers hentry hins).1 old hold (hsame.trans hkey.symm)

theorem precedes_trans {first second third : κ}
    (hfirst : ledger.Precedes store history first second)
    (hsecond : ledger.Precedes store history second third) :
    ledger.Precedes store history first third := by
  obtain ⟨entry, past, row, hentry, hins, rfl, old, hold, rfl⟩ := hfirst
  obtain ⟨entry', past', row', hentry', hins', rfl, present, hpresent, hkey⟩ := hsecond
  -- The second key is there before the third, so it was inserted before.
  have hnot : ¬ past' <:+ past := by
    intro hearly
    obtain ⟨still, hstill, hle⟩ := ledger.persists hearly hpresent
    exact (ledger.insert_fresh hanswers hentry hins).1 still hstill ((ledger.key_eq hle).trans hkey)
  have hbefore : past <:+ past' := by
    rcases entry_trichotomy hentry hentry' with heq | hlt | hlt
    · cases heq
      exact absurd List.suffix_rfl hnot
    · exact (List.suffix_cons _ _).trans hlt
    · exact absurd ((List.suffix_cons _ _).trans hlt) hnot
  obtain ⟨still, hstill, hle⟩ := ledger.persists hbefore hold
  exact ⟨entry', past', row', hentry', hins', rfl, still, hstill, ledger.key_eq hle⟩

end Answered

end Ledger

/-- A flag of a ledger's rows that only goes up, and the calls that raise it on
the row of a key.  They work on rows where it is down. -/
structure Latch {perform : ω → (c : Call) → σ → Reply c × σ}
    {effect : Called Reply → σ → σ} {key : α → κ}
    (ledger : Ledger perform effect key) where
  flag : α → Bool
  Raises : Called Reply → κ → Prop
  kept : ∀ {old row}, ledger.Later old row → flag old = true → flag row = true
  raised : ∀ choice call store k, Raises call k →
    call.2 = (perform choice call.1 store).1 →
      (∃ row ∈ (ledger.table store).rows, key row = k ∧ flag row = false) ∧
        ∃ row ∈ (ledger.table (effect call store)).rows,
          key row = k ∧ flag row = true

namespace Latch

variable {perform : ω → (c : Call) → σ → Reply c × σ}
variable {effect : Called Reply → σ → σ} {key : α → κ}
variable {ledger : Ledger perform effect key} (latch : Latch ledger)
variable {store : σ} {history : History Req Reply Answer}
variable (hanswers : Throughout (Answers perform effect store) history)

include hanswers

theorem up_after {thread : Nat} {request : Req} {call : Called Reply} {k : κ}
    {past later : History Req Reply Answer}
    (hentry : ⟨thread, request, .called call⟩ :: past <:+ later)
    (hlater : later <:+ history) (hraises : latch.Raises call k) :
    ∃ row ∈ (ledger.table (replay effect store later)).rows,
      key row = k ∧ latch.flag row = true := by
  obtain ⟨choice, hreply⟩ :=
    hanswers _ past (hentry.trans hlater) call rfl
  obtain ⟨-, old, hold, hkey, hflag⟩ :=
    latch.raised choice call _ k hraises hreply
  obtain ⟨row, hrow, hle⟩ := ledger.persists hentry hold
  exact ⟨row, hrow, (ledger.key_eq hle).trans hkey, latch.kept hle hflag⟩

/-- The flag of a row is raised at most once. -/
theorem raise_unique {thread thread' : Nat} {request request' : Req}
    {call call' : Called Reply} {k : κ} {past past' : History Req Reply Answer}
    (hentry : ⟨thread, request, .called call⟩ :: past <:+ history)
    (hentry' : ⟨thread', request', .called call'⟩ :: past' <:+ history)
    (hraises : latch.Raises call k) (hraises' : latch.Raises call' k) :
    (⟨thread, request, .called call⟩ : Entry Req Reply Answer) :: past =
      ⟨thread', request', .called call'⟩ :: past' := by
  have hclash : ∀ {t t' : Nat} {r r' : Req} {c c' : Called Reply}
      {p p' : History Req Reply Answer},
      ⟨t, r, .called c⟩ :: p <:+ p' → ⟨t', r', .called c'⟩ :: p' <:+ history →
        latch.Raises c k → latch.Raises c' k → False := by
    intro t t' r r' c c' p p' hfirst hsecond hc hc'
    obtain ⟨up, hup, hupKey, hupFlag⟩ := latch.up_after hanswers hfirst
      ((List.suffix_cons _ _).trans hsecond) hc
    obtain ⟨choice, hreply⟩ := hanswers _ p' hsecond c' rfl
    obtain ⟨⟨down, hdown, hdownKey, hdownFlag⟩, -⟩ :=
      latch.raised choice c' _ k hc' hreply
    have hsame := Table.row_eq_of_key_eq _ hup hdown (hupKey.trans hdownKey.symm)
    rw [hsame, hdownFlag] at hupFlag
    cases hupFlag
  rcases entry_trichotomy hentry hentry' with heq | hlt | hlt
  · exact heq
  · exact (hclash hlt hentry' hraises hraises').elim
  · exact (hclash hlt hentry hraises' hraises).elim

end Latch

end Aegion
