import GradeIo.Lib.Listener
import GradeIo.Snapshots

/-!
# Setters and what comes back

A scalar setter of an assignment or a user writes one field and leaves the
object alone; the property is to follow with the snapshot. `Setter.assign` is
what the caller means, `Setter.received` what arrives.

They agree for the setters whose key and type `SetPropertiesFromDoc` knows, on
objects that listen to the document they write to (`reads_back_iff`).
-/

namespace GradeIo

open DocDb Transition

/-- The listening objects whose setters are scalar. -/
inductive Listening where
  | assignment (a : Assignment)
  | user (u : IUser)
deriving DecidableEq

namespace Listening

def listen [TextOps] : Listening → Option DocPath
  | assignment a => a.listen
  | user u => u.listen

def setPropertiesFromDoc (o : Listening) (doc : Doc) : Option Listening :=
  match o with
  | assignment a => (a.setPropertiesFromDoc doc).map assignment
  | user u => (u.setPropertiesFromDoc doc).map user

/-- The document that the setters write to. -/
def ref : Listening → Option DocPath
  | assignment a => a.listen
  | user u => u.ref

end Listening

/-- The scalar setters of all classes. -/
inductive Setter where
  | setName (newName : String)
  | setDescription (newDescription : String)
  | setFilePath (newPath : String)
  | setClassID (newClassID : String)
  | setDueDate (newDate : String)
  | setFirstName (newFirstName : String)
  | setLastName (newLastName : String)
  | setEmail (newEmail : String)
  | setBio (newBio : String)
  | setPhotoPath (newPhotoPath : String)
  | setPronouns (newPronouns : String)
  | setGPA (newGPA : Rat)
  | setClassroom (newClass : String)
  | setParentID (newParentID : String)
  | setPhoneNumber (newNumber : String)

namespace Setter

/-- What the setter writes, if the object has it and it writes at all. -/
def write (dateFromString : String → Option Rat) (description : Rat → String) :
    Listening → Setter → Option Write
  | .assignment a, setName v => a.setName v
  | .assignment a, setDescription v => a.setDescription v
  | .assignment a, setFilePath v => a.setFilePath v
  | .assignment a, setClassID v => a.setClassID v
  | .assignment a, setDueDate v => (a.setDueDate dateFromString v).bind fun r => r.2.head?
  | .user u, setFirstName v => u.setFirstName v
  | .user u, setLastName v => u.setLastName v
  | .user u, setEmail v => u.setEmail v
  | .user u, setBio v => u.setBio v
  | .user u, setPhotoPath v => u.setPhotoPath v
  | .user u, setPronouns v => u.setPronouns v
  | .user (.student s), setGPA v => s.setGPA description v
  | .user (.student s), setClassroom v => s.setClassroom v
  | .user (.student s), setParentID v => s.setParentID v
  | .user (.teacher t), setPhoneNumber v => BaseAdult.setPhoneNumber (.teacher t) v
  | .user (.parent p), setPhoneNumber v => BaseAdult.setPhoneNumber (.parent p) v
  | _, _ => none

end Setter

/-- The same user with other base properties. -/
def IUser.mapBase (f : BaseUser → BaseUser) : IUser → IUser
  | base u => base (f u)
  | student u => student { u with toBaseUser := f u.toBaseUser }
  | teacher u => teacher { u with toBaseUser := f u.toBaseUser }
  | parent u => parent { u with toBaseUser := f u.toBaseUser }

namespace Setter

/-- The meaning of a setter: the named property has the value, every other one
is as before. -/
def assign (dateFromString : String → Option Rat) : Setter → Listening → Listening
  | setName v, .assignment a => .assignment { a with name := some v }
  | setDescription v, .assignment a => .assignment { a with description := some v }
  | setFilePath v, .assignment a => .assignment { a with filePath := some v }
  | setClassID v, .assignment a => .assignment { a with classID := some v }
  | setDueDate v, .assignment a => .assignment { a with dueDate := dateFromString v }
  | setFirstName v, .user u => .user (u.mapBase fun b => { b with firstName := some v })
  | setLastName v, .user u => .user (u.mapBase fun b => { b with lastName := some v })
  | setEmail v, .user u => .user (u.mapBase fun b => { b with email := some v })
  | setBio v, .user u => .user (u.mapBase fun b => { b with bio := some v })
  | setPhotoPath v, .user u => .user (u.mapBase fun b => { b with photoPath := some v })
  | setPronouns v, .user u => .user (u.mapBase fun b => { b with pronouns := some v })
  | setGPA v, .user (.student s) => .user (.student { s with gpa := some v })
  | setClassroom v, .user (.student s) => .user (.student { s with classID := some v })
  | setParentID v, .user (.student s) => .user (.student { s with parentID := some v })
  | setPhoneNumber v, .user (.teacher t) => .user (.teacher { t with phone := some v })
  | setPhoneNumber v, .user (.parent p) => .user (.parent { p with phone := some v })
  | _, o => o

/-- What the snapshot of the written document makes of the object. -/
def received (dateFromString : String → Option Rat) : Setter → Listening → Listening
  | setName _, o => o
  | setParentID _, o => o
  | setPhoneNumber _, o => o
  | setGPA _, .user (.student s) => .user (.student { s with gpa := none })
  | c, o => c.assign dateFromString o

/-- The object of a class with its setters, for the snapshots. -/
def listener [TextOps] (dateFromString : String → Option Rat) (description : Rat → String) :
    Listener Listening Setter where
  listen := Listening.listen
  read := Listening.setPropertiesFromDoc
  write := write dateFromString description

/-- What is set comes back: the setter is one that is read and the object
listens where it writes, or nothing was to be changed; text in the place of the
average destroys it. -/
def ReadsBack [TextOps] (dateFromString : String → Option Rat) (o : Listening) (c : Setter) :
    Prop :=
  match c with
  | setName _ => c.assign dateFromString o = o
  | setParentID _ => c.assign dateFromString o = o
  | setPhoneNumber _ => c.assign dateFromString o = o
  | setGPA _ => o.ref ≠ o.listen ∧ c.assign dateFromString o = o
  | _ => o.ref = o.listen ∨ c.assign dateFromString o = o

end Setter

/-! ## The laws of listening -/

theorem Listening.setPropertiesFromDoc_idem {o o' : Listening} {doc : Doc}
    (h : o.setPropertiesFromDoc doc = some o') : o'.setPropertiesFromDoc doc = some o' := by
  cases o with
  | assignment a =>
      obtain ⟨b, hb, rfl⟩ := Option.map_eq_some_iff.mp h
      exact congrArg (Option.map assignment) (Assignment.setPropertiesFromDoc_idem hb)
  | user u =>
      obtain ⟨v, hv, rfl⟩ := Option.map_eq_some_iff.mp h
      exact congrArg (Option.map user) (IUser.setPropertiesFromDoc_idem hv)

theorem Listening.listen_of_setPropertiesFromDoc [TextOps] {o o' : Listening} {doc : Doc}
    (h : o.setPropertiesFromDoc doc = some o') : o'.listen = o.listen := by
  cases o with
  | assignment a =>
      obtain ⟨b, hb, rfl⟩ := Option.map_eq_some_iff.mp h
      have hid := (Assignment.setPropertiesFromDoc_eq_some.mp hb).2.2.2.2.2.2.1
      rw [listen, listen, Assignment.listen, Assignment.listen, hid]
  | user u =>
      obtain ⟨v, hv, rfl⟩ := Option.map_eq_some_iff.mp h
      have hid := (IUser.id_of_setPropertiesFromDoc hv).1
      rw [listen, listen, IUser.listen, IUser.listen, IUser.getType, IUser.getType, hid]

theorem Setter.lawful [TextOps] (dateFromString : String → Option Rat) (description : Rat → String) :
    (listener dateFromString description).Lawful where
  idem _ _ _ h := Listening.setPropertiesFromDoc_idem h
  listen _ _ _ h := Listening.listen_of_setPropertiesFromDoc h

/-! ## One written field -/

section

variable {doc : Doc} {key v : String}

/-- A field that the base class does not read. -/
theorem BaseUser.setPropertiesFromDoc_insert_of_ne {key : String} {value : Value} (u : BaseUser)
    (h : key ∉ [Strings.firstName, Strings.lastName, Strings.email, Strings.bio,
      Strings.photoPath, Strings.pronouns]) :
    u.setPropertiesFromDoc (doc.insert key value) = u.setPropertiesFromDoc doc := by
  simp only [List.mem_cons, List.not_mem_nil, or_false, not_or] at h
  obtain ⟨h₁, h₂, h₃, h₄, h₅, h₆⟩ := h
  simp only [setPropertiesFromDoc, castField_insert_of_ne (Ne.symm h₁),
    castField_insert_of_ne (Ne.symm h₂), castField_insert_of_ne (Ne.symm h₃),
    castField_insert_of_ne (Ne.symm h₄), castField_insert_of_ne (Ne.symm h₅),
    castField_insert_of_ne (Ne.symm h₆)]

/-- A setter of the base class, seen by the base class. -/
theorem BaseUser.setPropertiesFromDoc_insert {u : BaseUser}
    (h : u.setPropertiesFromDoc doc = some u) (v : String) :
    u.setPropertiesFromDoc (doc.insert Strings.firstName (.string v)) =
        some { u with firstName := some v }
      ∧ u.setPropertiesFromDoc (doc.insert Strings.lastName (.string v)) =
        some { u with lastName := some v }
      ∧ u.setPropertiesFromDoc (doc.insert Strings.email (.string v)) =
        some { u with email := some v }
      ∧ u.setPropertiesFromDoc (doc.insert Strings.bio (.string v)) =
        some { u with bio := some v }
      ∧ u.setPropertiesFromDoc (doc.insert Strings.photoPath (.string v)) =
        some { u with photoPath := some v }
      ∧ u.setPropertiesFromDoc (doc.insert Strings.pronouns (.string v)) =
        some { u with pronouns := some v } := by
  rw [setPropertiesFromDoc_eq_some] at h
  obtain ⟨h₁, h₂, h₃, h₄, h₅, h₆, -, -⟩ := h
  have hv : asString (.string v) = some v := rfl
  refine ⟨?_, ?_, ?_, ?_, ?_, ?_⟩ <;>
    (rw [setPropertiesFromDoc_eq_some]
     simp (disch := decide) only [castField_insert_of_ne, castField_insert_self hv, h₁, h₂, h₃, h₄,
       h₅, h₆, and_self])

/-- The base class reads its part of the document. -/
theorem IUser.toBaseUser_of_setPropertiesFromDoc {u u' : IUser}
    (h : u.setPropertiesFromDoc doc = some u') :
    u.toBaseUser.setPropertiesFromDoc doc = some u'.toBaseUser := by
  cases u with
  | base u =>
      obtain ⟨v, hv, rfl⟩ := Option.map_eq_some_iff.mp h
      exact hv
  | student u =>
      obtain ⟨v, hv, rfl⟩ := Option.map_eq_some_iff.mp h
      exact (Student.setPropertiesFromDoc_eq_some.mp hv).1
  | teacher u =>
      obtain ⟨v, hv, rfl⟩ := Option.map_eq_some_iff.mp h
      exact (Teacher.setPropertiesFromDoc_eq_some.mp hv).1
  | parent u =>
      obtain ⟨v, hv, rfl⟩ := Option.map_eq_some_iff.mp h
      exact (Parent.setPropertiesFromDoc_eq_some.mp hv).1

/-- A field of the base class is none of a derived one. -/
theorem IUser.setPropertiesFromDoc_insert {u : IUser} {f : BaseUser → BaseUser} {value : Value}
    (h : u.setPropertiesFromDoc doc = some u)
    (hkey : key ∉ [Strings.gpa, Strings.classID, Strings.students])
    (hbase : u.toBaseUser.setPropertiesFromDoc (doc.insert key value) = some (f u.toBaseUser)) :
    u.setPropertiesFromDoc (doc.insert key value) = some (u.mapBase f) := by
  simp only [List.mem_cons, List.not_mem_nil, or_false, not_or] at hkey
  obtain ⟨hgpa, hclass, hstudents⟩ := hkey
  cases u with
  | base u => exact congrArg (Option.map IUser.base) hbase
  | student u =>
      have hu := Student.setPropertiesFromDoc_eq_some.mp
        (Option.map_injective (fun _ _ => IUser.student.inj) h)
      have hread : u.setPropertiesFromDoc (doc.insert key value) =
          some { u with toBaseUser := f u.toBaseUser } := by
        refine Student.setPropertiesFromDoc_eq_some.mpr ⟨hbase, ?_, ?_, rfl⟩
        · rw [gpaField_insert_of_ne hgpa]
          exact hu.2.1
        · rw [castField_insert_of_ne (Ne.symm hclass)]
          exact hu.2.2.1
      exact congrArg (Option.map IUser.student) hread
  | teacher u =>
      have hu := Teacher.setPropertiesFromDoc_eq_some.mp
        (Option.map_injective (fun _ _ => IUser.teacher.inj) h)
      have hread : u.setPropertiesFromDoc (doc.insert key value) =
          some { u with toBaseUser := f u.toBaseUser } := by
        refine Teacher.setPropertiesFromDoc_eq_some.mpr ⟨hbase, ?_, rfl⟩
        rw [castField_insert_of_ne (Ne.symm hclass)]
        exact hu.2.1
      exact congrArg (Option.map IUser.teacher) hread
  | parent u =>
      have hu := Parent.setPropertiesFromDoc_eq_some.mp
        (Option.map_injective (fun _ _ => IUser.parent.inj) h)
      have hread : u.setPropertiesFromDoc (doc.insert key value) =
          some { u with toBaseUser := f u.toBaseUser } := by
        refine Parent.setPropertiesFromDoc_eq_some.mpr ⟨hbase, ?_, rfl⟩
        rw [castField_insert_of_ne (Ne.symm hstudents)]
        exact hu.2.1
      exact congrArg (Option.map IUser.parent) hread

theorem DatabaseHelper.saveUserPropertyToDoc_eq_some {u : IUser} {w : Write}
    (h : saveUserPropertyToDoc u key v = some w) :
    ∃ q, u.ref = some q ∧ w = .setMerge q key (.string v) := by
  obtain ⟨q, hq, rfl⟩ := Option.map_eq_some_iff.mp h
  exact ⟨q, hq, rfl⟩

theorem Assignment.save_eq_some {a : Assignment} {value : Value} {w : Write}
    (h : a.save key value = some w) : ∃ q, a.listen = some q ∧ w = .setMerge q key value := by
  obtain ⟨id, hid, hw⟩ := Option.bind_eq_some_iff.mp h
  obtain ⟨q, hq, rfl⟩ := Option.map_eq_some_iff.mp hw
  exact ⟨q, by rw [listen, hid, Option.bind_some, hq], rfl⟩

/-- A snapshot of an assignment with one more field. -/
theorem Assignment.setPropertiesFromDoc_insert {a : Assignment}
    (h : a.setPropertiesFromDoc doc = some a) (v : String) (date : Rat) :
    a.setPropertiesFromDoc (doc.insert Strings.name (.string v)) = some a
      ∧ a.setPropertiesFromDoc (doc.insert Strings.description (.string v)) =
        some { a with description := some v }
      ∧ a.setPropertiesFromDoc (doc.insert Strings.filePath (.string v)) =
        some { a with filePath := some v }
      ∧ a.setPropertiesFromDoc (doc.insert Strings.classID (.string v)) =
        some { a with classID := some v }
      ∧ a.setPropertiesFromDoc (doc.insert Strings.dueDate (.timestamp date)) =
        some { a with dueDate := some date } := by
  rw [setPropertiesFromDoc_eq_some] at h
  obtain ⟨h₁, h₂, h₃, h₄, h₅, h₆, -, -⟩ := h
  have hv : asString (.string v) = some v := rfl
  have hdate : asDate (.timestamp date) = some date := rfl
  refine ⟨?_, ?_, ?_, ?_, ?_⟩ <;>
    (rw [setPropertiesFromDoc_eq_some]
     simp (disch := decide) only [castField_insert_of_ne, castList_insert_of_ne,
       castField_insert_self hv, castField_insert_self hdate, h₁, h₂, h₃, h₄, h₅, h₆, and_self])

/-- A field that the class does not read. -/
theorem IUser.setPropertiesFromDoc_insert_of_ne {u : IUser} {value : Value}
    (h : u.setPropertiesFromDoc doc = some u)
    (hkey : key ∉ [Strings.gpa, Strings.classID, Strings.students])
    (hbase : key ∉ [Strings.firstName, Strings.lastName, Strings.email, Strings.bio,
      Strings.photoPath, Strings.pronouns]) :
    u.setPropertiesFromDoc (doc.insert key value) = some u := by
  have hread : u.toBaseUser.setPropertiesFromDoc (doc.insert key value) =
      some ((fun b => b) u.toBaseUser) := by
    rw [BaseUser.setPropertiesFromDoc_insert_of_ne _ hbase]
    exact IUser.toBaseUser_of_setPropertiesFromDoc h
  rw [setPropertiesFromDoc_insert (f := fun b => b) h hkey hread]
  cases u <;> rfl

/-- The two fields of a student. -/
theorem Student.setPropertiesFromDoc_insert {s : Student}
    (h : s.setPropertiesFromDoc doc = some s) (v : String) :
    s.setPropertiesFromDoc (doc.insert Strings.gpa (.string v)) = some { s with gpa := none }
      ∧ s.setPropertiesFromDoc (doc.insert Strings.classID (.string v)) =
        some { s with classID := some v } := by
  rw [setPropertiesFromDoc_eq_some] at h
  obtain ⟨hbase, hgpa, hclass, -⟩ := h
  refine ⟨?_, ?_⟩
  · rw [setPropertiesFromDoc_eq_some, BaseUser.setPropertiesFromDoc_insert_of_ne _ (by decide),
      castField_insert_of_ne (by decide)]
    refine ⟨hbase, ?_, hclass, rfl⟩
    simp [gpaField, floatValue]
  · rw [setPropertiesFromDoc_eq_some, BaseUser.setPropertiesFromDoc_insert_of_ne _ (by decide)]
    have hv : asString (.string v) = some v := rfl
    refine ⟨hbase, ?_, castField_insert_self hv _, rfl⟩
    rw [gpaField_insert_of_ne (by decide)]
    exact hgpa

end

/-! ## What each setter writes, and what arrives -/

section

variable {dateFromString : String → Option Rat} {description : Rat → String} {doc : Doc}
  {o : Listening} {c : Setter} {w : Write}

open DatabaseHelper

/-- A user whose object the new snapshot turns into `u'`. -/
theorem Setter.write_user {u u' : IUser} {key v : String}
    (hw : saveUserPropertyToDoc u key v = some w)
    (hread : u.setPropertiesFromDoc (doc.insert key (.string v)) = some u') :
    ∃ q key' value, w = .setMerge q key' value ∧ (Listening.user u).ref = some q
      ∧ (Listening.user u).setPropertiesFromDoc (doc.insert key' value) = some (.user u') := by
  obtain ⟨q, hq, rfl⟩ := saveUserPropertyToDoc_eq_some hw
  exact ⟨q, key, .string v, rfl, hq, congrArg (Option.map Listening.user) hread⟩

theorem Listening.user_eq_some {u : IUser}
    (hsync : (Listening.user u).setPropertiesFromDoc doc = some (.user u)) :
    u.setPropertiesFromDoc doc = some u :=
  Option.map_injective (fun _ _ => Listening.user.inj) hsync

theorem Setter.write_user_base {u : IUser} {key v : String} {f : BaseUser → BaseUser}
    (hsync : (Listening.user u).setPropertiesFromDoc doc = some (.user u))
    (hw : saveUserPropertyToDoc u key v = some w)
    (hkey : key ∉ [Strings.gpa, Strings.classID, Strings.students])
    (hbase : ∀ b : BaseUser, b.setPropertiesFromDoc doc = some b →
      b.setPropertiesFromDoc (doc.insert key (.string v)) = some (f b)) :
    ∃ q key' value, w = .setMerge q key' value ∧ (Listening.user u).ref = some q
      ∧ (Listening.user u).setPropertiesFromDoc (doc.insert key' value) =
        some (.user (u.mapBase f)) := by
  have hu := Listening.user_eq_some hsync
  exact write_user hw (IUser.setPropertiesFromDoc_insert hu hkey
    (hbase _ (IUser.toBaseUser_of_setPropertiesFromDoc hu)))

theorem Setter.write_user_unread {u : IUser} {key v : String}
    (hsync : (Listening.user u).setPropertiesFromDoc doc = some (.user u))
    (hw : saveUserPropertyToDoc u key v = some w)
    (hkey : key ∉ [Strings.gpa, Strings.classID, Strings.students])
    (hbase : key ∉ [Strings.firstName, Strings.lastName, Strings.email, Strings.bio,
      Strings.photoPath, Strings.pronouns]) :
    ∃ q key' value, w = .setMerge q key' value ∧ (Listening.user u).ref = some q
      ∧ (Listening.user u).setPropertiesFromDoc (doc.insert key' value) = some (.user u) :=
  write_user hw
    (IUser.setPropertiesFromDoc_insert_of_ne (Listening.user_eq_some hsync) hkey hbase)

theorem Setter.write_student {s s' : Student} {key v : String}
    (hsync : (Listening.user (.student s)).setPropertiesFromDoc doc = some (.user (.student s)))
    (hw : saveUserPropertyToDoc (.student s) key v = some w)
    (hread : s.setPropertiesFromDoc doc = some s →
      s.setPropertiesFromDoc (doc.insert key (.string v)) = some s') :
    ∃ q key' value, w = .setMerge q key' value ∧ (Listening.user (.student s)).ref = some q
      ∧ (Listening.user (.student s)).setPropertiesFromDoc (doc.insert key' value) =
        some (.user (.student s')) := by
  have hs : s.setPropertiesFromDoc doc = some s :=
    Option.map_injective (fun _ _ => IUser.student.inj) (Listening.user_eq_some hsync)
  exact write_user hw (congrArg (Option.map IUser.student) (hread hs))

theorem Setter.write_assignment {a b : Assignment} {key : String} {value : Value}
    (hw : a.save key value = some w)
    (hread : a.setPropertiesFromDoc (doc.insert key value) = some b) :
    ∃ q key' value', w = .setMerge q key' value' ∧ (Listening.assignment a).ref = some q
      ∧ (Listening.assignment a).setPropertiesFromDoc (doc.insert key' value') =
        some (.assignment b) := by
  obtain ⟨q, hq, rfl⟩ := Assignment.save_eq_some hw
  exact ⟨q, key, value, rfl, hq, congrArg (Option.map Listening.assignment) hread⟩

/-- A due date is written if it parses. -/
theorem Assignment.setDueDate_head {a : Assignment} {newDate : String}
    (h : (a.setDueDate dateFromString newDate).bind (fun r => r.2.head?) = some w) :
    ∃ date, dateFromString newDate = some date
      ∧ a.save Strings.dueDate (.timestamp date) = some w := by
  unfold setDueDate at h
  cases hdate : dateFromString newDate with
  | none => simp [hdate] at h
  | some date =>
      rw [hdate] at h
      obtain ⟨r, hr, hhead⟩ := Option.bind_eq_some_iff.mp h
      obtain ⟨w', hw', rfl⟩ := Option.map_eq_some_iff.mp hr
      exact ⟨date, rfl, hw'.trans hhead⟩

theorem Setter.write_eq_some (hsync : o.setPropertiesFromDoc doc = some o)
    (hw : c.write dateFromString description o = some w) :
    ∃ q key value, w = .setMerge q key value ∧ o.ref = some q
      ∧ o.setPropertiesFromDoc (doc.insert key value) = some (c.received dateFromString o) := by
  cases o with
  | assignment a =>
      have ha : a.setPropertiesFromDoc doc = some a :=
        Option.map_injective (fun _ _ => Listening.assignment.inj) hsync
      cases c with
      | setName v => exact write_assignment hw (Assignment.setPropertiesFromDoc_insert ha v 0).1
      | setDescription v =>
          exact write_assignment hw (Assignment.setPropertiesFromDoc_insert ha v 0).2.1
      | setFilePath v =>
          exact write_assignment hw (Assignment.setPropertiesFromDoc_insert ha v 0).2.2.1
      | setClassID v =>
          exact write_assignment hw (Assignment.setPropertiesFromDoc_insert ha v 0).2.2.2.1
      | setDueDate v =>
          obtain ⟨date, hdate, hsave⟩ := Assignment.setDueDate_head hw
          have hreceived : received dateFromString (setDueDate v) (.assignment a) =
              .assignment { a with dueDate := dateFromString v } := rfl
          rw [hreceived, hdate]
          exact write_assignment hsave (Assignment.setPropertiesFromDoc_insert ha v date).2.2.2.2
      | _ => cases hw
  | user u =>
      have hinsert := fun (b : BaseUser) (v : String) (hb : b.setPropertiesFromDoc doc = some b) =>
        BaseUser.setPropertiesFromDoc_insert hb v
      cases c with
      | setFirstName v =>
          exact write_user_base hsync hw (by decide) fun b hb => (hinsert b v hb).1
      | setLastName v =>
          exact write_user_base hsync hw (by decide) fun b hb => (hinsert b v hb).2.1
      | setEmail v =>
          exact write_user_base hsync hw (by decide) fun b hb => (hinsert b v hb).2.2.1
      | setBio v =>
          exact write_user_base hsync hw (by decide) fun b hb => (hinsert b v hb).2.2.2.1
      | setPhotoPath v =>
          exact write_user_base hsync hw (by decide) fun b hb => (hinsert b v hb).2.2.2.2.1
      | setPronouns v =>
          exact write_user_base hsync hw (by decide) fun b hb => (hinsert b v hb).2.2.2.2.2
      | setPhoneNumber v =>
          cases u with
          | teacher t => exact write_user_unread hsync hw (by decide) (by decide)
          | parent p => exact write_user_unread hsync hw (by decide) (by decide)
          | _ => cases hw
      | setParentID v =>
          cases u with
          | student s => exact write_user_unread hsync hw (by decide) (by decide)
          | _ => cases hw
      | setGPA v =>
          cases u with
          | student s =>
              exact write_student hsync hw fun hs =>
                (Student.setPropertiesFromDoc_insert hs (description v)).1
          | _ => cases hw
      | setClassroom v =>
          cases u with
          | student s =>
              exact write_student hsync hw fun hs =>
                (Student.setPropertiesFromDoc_insert hs v).2
          | _ => cases hw
      | _ => cases hw

/-- Text is never the number that was set. -/
theorem Setter.received_setGPA_ne {v : Rat}
    (hw : (setGPA v).write dateFromString description o = some w) :
    (setGPA v).received dateFromString o ≠ (setGPA v).assign dateFromString o := by
  intro h
  cases o with
  | assignment a => cases hw
  | user u =>
      cases u with
      | student s =>
          injection h with h
          injection h with h
          exact absurd (congrArg Student.gpa h) (by simp)
      | _ => cases hw

/-- A call that writes, in any state that an object reaches by calls and their
snapshots: the property has the value and every other one is as before, exactly
if what is set comes back. -/
theorem Setter.reads_back_iff [TextOps] {st : Listener.State Listening}
    (h : (listener dateFromString description).system.Reachable st)
    (hw : c.write dateFromString description st.obj = some w) :
    (∃ st', (listener dateFromString description).system.step st c = some st'
        ∧ st'.obj = c.assign dateFromString st.obj)
      ↔ c.ReadsBack dateFromString st.obj := by
  obtain ⟨p, hsync⟩ := (lawful dateFromString description).inSync h
  obtain ⟨q, key, value, rfl, hq, hread⟩ := write_eq_some hsync.read hw
  have hlisten : st.obj.listen = some p := hsync.listen
  have href : q = p ↔ st.obj.ref = st.obj.listen := by
    rw [hq, hlisten, Option.some.injEq]
  rw [hsync.step_obj_iff hw hread]
  -- a setter whose field is read, and one whose field is not
  have hgood : c.received dateFromString st.obj = c.assign dateFromString st.obj →
      ((if q = p then c.received dateFromString st.obj = c.assign dateFromString st.obj
          else st.obj = c.assign dateFromString st.obj) ↔
        st.obj.ref = st.obj.listen ∨ c.assign dateFromString st.obj = st.obj) := by
    intro heq
    rw [← href]
    by_cases hsame : q = p
    · simp [hsame, heq]
    · simp [hsame, eq_comm]
  have hunread : c.received dateFromString st.obj = st.obj →
      ((if q = p then c.received dateFromString st.obj = c.assign dateFromString st.obj
          else st.obj = c.assign dateFromString st.obj) ↔
        c.assign dateFromString st.obj = st.obj) := by
    intro heq
    rw [heq, ite_self]
    exact eq_comm
  cases c with
  | setName v => exact hunread rfl
  | setParentID v => exact hunread rfl
  | setPhoneNumber v => exact hunread rfl
  | setGPA v =>
      have hne := received_setGPA_ne hw
      rw [ReadsBack, ne_eq, ← href]
      by_cases hsame : q = p
      · simp [hsame, hne]
      · simp [hsame, eq_comm]
  | _ => exact hgood rfl

end

/-! ## Two objects -/

namespace Setter

attribute [local instance] TextOps.ascii

/-- An object that has just begun to listen, with nothing stored. -/
def listening (o : Listening) : Listener.State Listening := ⟨o, fun _ => ∅⟩

theorem reachable_listening {o : Listening} {p : DocPath} (hp : o.listen = some p)
    (hread : o.setPropertiesFromDoc ∅ = some o) :
    (listener (fun _ => none) fun _ => "").system.Reachable (listening o) :=
  .init ⟨o, p, hp, hread⟩

/-- Ann's bio comes back. -/
theorem reads_back_bio :
    ∃ st', (listener (fun _ => none) fun _ => "").system.step
        (listening (.user (.student (Student.new "s_ann")))) (setBio "Hello") = some st'
      ∧ st'.obj = (setBio "Hello").assign (fun _ => none)
          (.user (.student (Student.new "s_ann"))) := by
  have hreach := reachable_listening (o := .user (.student (Student.new "s_ann")))
    (p := ⟨"Student", "s_ann"⟩) (by decide) rfl
  have hwrite : (setBio "Hello").write (fun _ => none) (fun _ => "")
      (.user (.student (Student.new "s_ann"))) =
        some (.setMerge ⟨"Student", "s_ann"⟩ Strings.bio (.string "Hello")) := by decide
  have hback : (setBio "Hello").ReadsBack (fun _ => none)
      (.user (.student (Student.new "s_ann"))) := Or.inl (by decide)
  exact (reads_back_iff hreach hwrite).mpr hback

/-- The name of an assignment does not. -/
theorem name_not_readBack :
    ∃ st, (listener (fun _ => none) fun _ => "").system.Reachable st
      ∧ (∃ w, (setName "Quiz 1").write (fun _ => none) (fun _ => "") st.obj = some w)
      ∧ ¬ ∃ st', (listener (fun _ => none) fun _ => "").system.step st (setName "Quiz 1") = some st'
        ∧ st'.obj = (setName "Quiz 1").assign (fun _ => none) st.obj := by
  refine ⟨listening (.assignment (Assignment.new "quiz" 0)),
    reachable_listening (p := ⟨"Assignment", "quiz"⟩) (by decide) rfl,
    ⟨.setMerge ⟨"Assignment", "quiz"⟩ Strings.name (.string "Quiz 1"), by decide⟩, ?_⟩
  rintro ⟨st', hstep, hobj⟩
  have hsame : ((listener (fun _ => none) fun _ => "").system.step
      (listening (.assignment (Assignment.new "quiz" 0))) (setName "Quiz 1")).map
        Listener.State.obj = some (.assignment (Assignment.new "quiz" 0)) := by decide
  rw [hstep, Option.map_some, hobj] at hsame
  exact absurd hsame (by decide)

end Setter

end GradeIo
