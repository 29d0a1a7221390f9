import GradeIo.App
import GradeIo.UserHelper

/-!
# The four sign-up paths

`CreateAccountStudent.swift`, `CreateAccountTeacher.swift`,
`CreateAccountParent.swift` and what they call in `UserHelper`, `Student` and
`AuthCommands`. A handler gives `true` where it opens a home screen and
`false` where it shows an alert.

The three paths with a form are one program with parameters, `createAccount`.
-/

namespace GradeIo

open DocDb App

/-- The text fields of a form. -/
structure Form where
  firstName : String
  lastName : String
  password : String
  confirmPassword : String
  email : String
  phoneNumber : String
deriving DecidableEq, Repr

/-- How the outside world answers: the number drawn, whether reading the
document fails, and whether Auth accepts the new user. -/
structure Outcome where
  draw : Fin 1001
  failed : Bool
  accepted : Bool
deriving DecidableEq, Repr

namespace UserHelper

def firstNameIndexDefault : Nat := 3

def lastNameIndexDefault : Nat := 5

/-- The name before the number. -/
def plainUserName (ops : TextOps) (firstName lastName type : String) : Answer String := do
  let generatedName := ops.lowercased
    (ops.takePrefix lastNameIndexDefault lastName ++ ops.takePrefix firstNameIndexDefault firstName)
  let initial ← unwrap (TextOps.first type)
  pure (ops.lowercased initial ++ "_" ++ generatedName)

/-- The number is appended once, and the result is not looked up again. -/
def generateUserName (ops : TextOps) (o : Outcome) (firstName lastName type : String)
    (s : Store) : Answer String := do
  let generatedName ← plainUserName ops firstName lastName type
  let p ← unwrap (documentPath type generatedName)
  if o.failed then pure generatedName
  else if (s.get? p).isSome then pure (generatedName ++ toString o.draw.val)
  else pure generatedName

end UserHelper

namespace AuthCommands

def passwordsAreSame (ops : TextOps) (password confirm : String) : Bool :=
  @TextOps.Same ops password confirm

def passwordsAreValid (ops : TextOps) (password confirm : String) : Bool :=
  passwordsAreSame ops password confirm && 7 < ops.count password

def passwordOK (ops : TextOps) (password confirm : String) : Bool :=
  passwordsAreValid ops password confirm && passwordsAreSame ops password confirm

end AuthCommands

/-! ## Paths with a form -/

/-- The completion of the sign-up of `type`: the new object's `SetID`, then the
setters, then the segue. -/
def createAccount (ops : TextOps) (o : Outcome) (form : Form) (type : String)
    (new : String → IUser) (setters : List (IUser → Option Write)) (refused segue : String) :
    App Bool := do
  let newUserName ← ask (UserHelper.generateUserName ops o form.firstName form.lastName type)
  if ← createUserWithEmail (newUserName ++ Strings.arbitraryEmail) o.accepted then
    let user := new newUserName
    perform (user.setID newUserName)
    setCurrentUser user
    performAll (setters.map fun set => set user)
    performSegue segue
    pure true
  else
    doAlert "error" refused
    pure false

def Form.allFieldsFull (form : Form) : Bool :=
  !form.email.isEmpty && !form.phoneNumber.isEmpty && !form.password.isEmpty
    && !form.confirmPassword.isEmpty && !form.firstName.isEmpty && !form.lastName.isEmpty

def Form.isValid (ops : TextOps) (form : Form) : Bool :=
  AuthCommands.passwordOK ops form.password form.confirmPassword && form.allFieldsFull

/-- The form is checked first, with the alerts of the two cases exchanged. -/
def createAdult (ops : TextOps) (o : Outcome) (form : Form) (type : String)
    (new : String → IUser) (segue : String) : App Bool := do
  if form.isValid ops then
    createAccount ops o form type new
      [fun u => u.setEmail form.email, fun u => u.setFirstName form.firstName,
        fun u => u.setLastName form.lastName,
        fun u => BaseAdult.setPhoneNumber u form.phoneNumber]
      "Could not create account. Contact support" segue
  else if @TextOps.Same ops form.password form.confirmPassword then
    doAlert "error" "Password and Confirm Password must match"
    pure false
  else
    doAlert "error" "All fields are required"
    pure false

def CreateAccountStudent.signUpPressed (ops : TextOps) (o : Outcome) (form : Form) : App Bool :=
  createAccount ops o form Strings.student (fun id => .student (Student.new id))
    [fun u => u.setFirstName form.firstName, fun u => u.setLastName form.lastName]
    "Could not create account, contact support" "studentCreateToHome"

def CreateAccountTeacher.signUpPressed (ops : TextOps) (o : Outcome) (form : Form) : App Bool :=
  createAdult ops o form Strings.teacher (fun id => .teacher (Teacher.new id))
    "teacherCreateToHome"

def CreateAccountParent.signUpPressed (ops : TextOps) (o : Outcome) (form : Form) : App Bool :=
  createAdult ops o form Strings.parent (fun id => .parent (Parent.new id)) "parentCreateToHome"

/-! ## The path with a parent code -/

/-- `Student(givenCode:)`: traps if the code is empty or names no student. The
new object's own id is set and never used. -/
def Student.ofGivenCode [TextOps] (code : String) (s : Store) : Answer Student := do
  let res ← UserHelper.getUserByID s code
  let _ ← unwrap (TextOps.first code)
  unwrap res.asStudent

/-- The user a placeholder becomes. -/
def Student.migrated (res : Student) (id : String) : Student := { res with id := some ("s_" ++ id) }

/-- The completion of `GenerateUserName`: its name gets a second `s_`, and
`SetID` is not called. -/
def CreateAccountStudent.migrate [TextOps] (floatDescription : Rat → String) (code : String)
    (res : Student) (id : String) : App Bool := do
  let student := res.migrated id
  let user := IUser.student student
  setCurrentUser user
  performAll
    [user.setBio (res.bio.getD ""),
     user.setEmail (res.email.getD ""),
     student.setClassroom (res.classID.getD ""),
     user.setFirstName (res.firstName.getD ""),
     user.setLastName (res.lastName.getD ""),
     student.setGPA floatDescription (res.gpa.getD 0),
     user.setPhotoPath (res.photoPath.getD ""),
     user.setPronouns (res.pronouns.getD "")]
  let _ ← App.unwrap user.listen
  perform (DatabaseHelper.deleteDocument Strings.student code)
  performSegue "studentCreateToHome"
  pure true

def CreateAccountStudent.signUpParentCodePressed (ops : TextOps) (floatDescription : Rat → String)
    (o : Outcome) (code : String) : App Bool := do
  let res ← ask (Student.ofGivenCode code)
  if res.firstName = some "" then
    doAlert "error" "code not found, or student already registered"
    pure false
  else
    setCurrentUser (.student res)
    let id ← ask (UserHelper.generateUserName ops o (res.firstName.getD "") (res.lastName.getD "")
      "Student")
    migrate floatDescription code res id

/-! ## What the paths do -/

/-- A list of string fields. -/
def strings (fields : List (String × String)) : Dict := fields.map fun f => (f.1, .string f.2)

theorem performAll_saveUserPropertyToDoc {user : IUser} {p : DocPath} (hp : user.ref = some p)
    (fields : List (String × String)) {σ : World} :
    (performAll (fields.map fun f => DatabaseHelper.saveUserPropertyToDoc user f.1 f.2)).run σ =
      .ok () { σ with store := σ.store.applyAll (mergeAll p (strings fields)) } := by
  have hmap : (fields.map fun f => DatabaseHelper.saveUserPropertyToDoc user f.1 f.2) =
      (mergeAll p (strings fields)).map some := by
    simp [mergeAll, strings, DatabaseHelper.saveUserPropertyToDoc, hp]
  rw [hmap, run_performAll]

section GeneratedName

variable {ops : TextOps} {o : Outcome} {firstName lastName type name : String} {p : DocPath}
  {s : Store}

/-- The generated name is the plain one, or that with the number drawn. -/
theorem generateUserName_of_plain
    (hname : UserHelper.plainUserName ops firstName lastName type = .ok name) :
    UserHelper.generateUserName ops o firstName lastName type s =
      match documentPath type name with
      | none => .error .trap
      | some p => .ok (if o.failed = false ∧ (s.get? p).isSome then name ++ toString o.draw.val
          else name) := by
  unfold UserHelper.generateUserName
  simp only [hname, bind, Except.bind]
  cases documentPath type name with
  | none => rfl
  | some p =>
      simp only [unwrap]
      cases o.failed with
      | true => rfl
      | false => cases s.get? p <;> rfl

/-- The generated name, when the document of the plain name can be read. -/
theorem generateUserName_eq
    (hname : UserHelper.plainUserName ops firstName lastName type = .ok name)
    (hp : documentPath type name = some p) (hread : o.failed = false) :
    UserHelper.generateUserName ops o firstName lastName type s =
      .ok (if (s.get? p).isSome then name ++ toString o.draw.val else name) := by
  simp only [generateUserName_of_plain hname, hp, hread, true_and]

end GeneratedName

/-- What a student's form becomes. -/
def studentFields (form : Form) : List (String × String) :=
  [(Strings.firstName, form.firstName), (Strings.lastName, form.lastName)]

theorem studentSetters_eq (form : Form) (name : String) :
    ([fun u : IUser => u.setFirstName form.firstName, fun u => u.setLastName form.lastName].map
      fun set => set (.student (Student.new name))) =
      (studentFields form).map fun f =>
        DatabaseHelper.saveUserPropertyToDoc (.student (Student.new name)) f.1 f.2 := rfl

/-- What a teacher's or a parent's form becomes. -/
def adultFields (form : Form) : List (String × String) :=
  [(Strings.email, form.email), (Strings.firstName, form.firstName),
   (Strings.lastName, form.lastName), (Strings.phone, form.phoneNumber)]

/-- The world after a sign-up with a form. -/
def World.signedUp (σ : World) (name : String) (p : DocPath) (fields : List (String × String))
    (user : IUser) (segue : String) : World :=
  { σ with
    accounts := σ.accounts ++ [name ++ Strings.arbitraryEmail]
    signedIn := some (name ++ Strings.arbitraryEmail)
    store := σ.store.applyAll (mergeAll p (strings ((Strings.id, name) :: fields)))
    currentUser := user
    screens := σ.screens ++ [segue] }

/-- The handler does not complete a sign-up, and writes nothing. -/
def Unregistered (σ : World) : EStateM.Result Halt World Bool → Prop
  | .ok true _ => False
  | .ok false σ' => σ'.store = σ.store
  | .error _ σ' => σ'.store = σ.store

/-- The handler does not complete a sign-up, and leaves the current user too. -/
def EndsEarly (σ : World) (r : EStateM.Result Halt World Bool) : Prop :=
  ∃ σ', (r = .ok false σ' ∨ ∃ e, r = .error e σ')
    ∧ σ'.store = σ.store ∧ σ'.currentUser = σ.currentUser

theorem EndsEarly.unregistered {σ : World} {r : EStateM.Result Halt World Bool}
    (h : EndsEarly σ r) : Unregistered σ r := by
  obtain ⟨σ', rfl | ⟨e, rfl⟩, hstore, -⟩ := h
  · exact hstore
  · exact hstore

/-- The handler completes a sign-up with a form. -/
def Registers (ops : TextOps) (o : Outcome) (form : Form) (type : String)
    (fields : List (String × String)) (new : String → IUser) (segue : String) (σ : World)
    (r : EStateM.Result Halt World Bool) : Prop :=
  ∃ name p, UserHelper.generateUserName ops o form.firstName form.lastName type σ.store = .ok name
    ∧ o.accepted = true ∧ name ++ Strings.arbitraryEmail ∉ σ.accounts
    ∧ documentPath type name = some p
    ∧ r = .ok true (σ.signedUp name p fields (new name) segue)

section CreateAccount

variable {ops : TextOps} {o : Outcome} {form : Form} {type : String} {new : String → IUser}
  {setters : List (IUser → Option Write)} {refused segue name : String} {σ : World}

theorem run_createAccount_halt {e : Halt}
    (h : UserHelper.generateUserName ops o form.firstName form.lastName type σ.store = .error e) :
    (createAccount ops o form type new setters refused segue).run σ = .error e σ := by
  rw [createAccount, EStateM.run_bind, run_ask_error h]

theorem run_createAccount_refused
    (h : UserHelper.generateUserName ops o form.firstName form.lastName type σ.store = .ok name)
    (hauth : o.accepted = false ∨ name ++ Strings.arbitraryEmail ∈ σ.accounts) :
    (createAccount ops o form type new setters refused segue).run σ =
      .ok false { σ with alerts := σ.alerts ++ [("error", refused)] } := by
  rw [createAccount, EStateM.run_bind, run_ask_ok h]
  simp only [EStateM.run_bind, run_createUserWithEmail_refused hauth]
  rfl

/-- The account is made before the document's name is found to be unusable. -/
theorem run_createAccount_trap
    (h : UserHelper.generateUserName ops o form.firstName form.lastName type σ.store = .ok name)
    (hauth : o.accepted = true) (hnew : name ++ Strings.arbitraryEmail ∉ σ.accounts)
    (hid : (new name).withID name = new name) (hp : (new name).ref = none) :
    (createAccount ops o form type new setters refused segue).run σ =
      .error .trap { σ with
        accounts := σ.accounts ++ [name ++ Strings.arbitraryEmail]
        signedIn := some (name ++ Strings.arbitraryEmail) } := by
  rw [createAccount, EStateM.run_bind, run_ask_ok h]
  simp only [EStateM.run_bind, hauth, run_createUserWithEmail_accepted hnew]
  simp [IUser.setID, hid, DatabaseHelper.saveUserPropertyToDoc, hp]

/-- A completed sign-up merges the id and the fields into one document. -/
theorem run_createAccount {p : DocPath} {fields : List (String × String)}
    (h : UserHelper.generateUserName ops o form.firstName form.lastName type σ.store = .ok name)
    (hauth : o.accepted = true) (hnew : name ++ Strings.arbitraryEmail ∉ σ.accounts)
    (hid : (new name).withID name = new name) (hp : (new name).ref = some p)
    (hset : (setters.map fun set => set (new name)) =
      fields.map fun f => DatabaseHelper.saveUserPropertyToDoc (new name) f.1 f.2) :
    (createAccount ops o form type new setters refused segue).run σ =
      .ok true (σ.signedUp name p fields (new name) segue) := by
  have hsetID : (new name).setID name = some (.setMerge p Strings.id (.string name)) := by
    simp [IUser.setID, hid, DatabaseHelper.saveUserPropertyToDoc, hp]
  have hsetters : ∀ σ, (performAll (setters.map fun set => set (new name))).run σ =
      .ok () { σ with store := σ.store.applyAll (mergeAll p (strings fields)) } := fun σ => by
    rw [hset, performAll_saveUserPropertyToDoc hp]
  rw [createAccount, EStateM.run_bind, run_ask_ok h]
  simp only [EStateM.run_bind, hauth, run_createUserWithEmail_accepted hnew, if_true, hsetID,
    run_perform_some, run_setCurrentUser, hsetters, run_performSegue]
  rfl

/-- Everything `createAccount` can do. -/
theorem createAccount_ends {fields : List (String × String)}
    (hid : ∀ name, (new name).withID name = new name)
    (href : ∀ name, (new name).ref = documentPath type name)
    (hset : ∀ name, (setters.map fun set => set (new name)) =
      fields.map fun f => DatabaseHelper.saveUserPropertyToDoc (new name) f.1 f.2) :
    EndsEarly σ ((createAccount ops o form type new setters refused segue).run σ)
      ∨ Registers ops o form type fields new segue σ
          ((createAccount ops o form type new setters refused segue).run σ) := by
  cases hgen : UserHelper.generateUserName ops o form.firstName form.lastName type σ.store with
  | error e => exact Or.inl ⟨σ, Or.inr ⟨e, run_createAccount_halt hgen⟩, rfl, rfl⟩
  | ok name =>
      by_cases hauth : o.accepted = false ∨ name ++ Strings.arbitraryEmail ∈ σ.accounts
      · exact Or.inl ⟨_, Or.inl (run_createAccount_refused hgen hauth), rfl, rfl⟩
      · rw [not_or, Bool.not_eq_false] at hauth
        obtain ⟨hacc, hnew⟩ := hauth
        cases hp : documentPath type name with
        | none =>
            exact Or.inl ⟨_, Or.inr ⟨.trap,
              run_createAccount_trap hgen hacc hnew (hid name) ((href name).trans hp)⟩, rfl, rfl⟩
        | some p =>
            exact Or.inr ⟨name, p, hgen, hacc, hnew, hp,
              run_createAccount hgen hacc hnew (hid name) ((href name).trans hp) (hset name)⟩

/-- Everything `createAdult` can do. -/
theorem createAdult_ends (hid : ∀ name, (new name).withID name = new name)
    (href : ∀ name, (new name).ref = documentPath type name) :
    EndsEarly σ ((createAdult ops o form type new segue).run σ)
      ∨ form.isValid ops = true
        ∧ Registers ops o form type (adultFields form) new segue σ
            ((createAdult ops o form type new segue).run σ) := by
  unfold createAdult
  cases hvalid : form.isValid ops with
  | true =>
      simp only [if_true, true_and]
      exact createAccount_ends hid href fun _ => rfl
  | false =>
      left
      simp only [Bool.false_eq_true, if_false]
      split
      · exact ⟨_, Or.inl rfl, rfl, rfl⟩
      · exact ⟨_, Or.inl rfl, rfl, rfl⟩

theorem CreateAccountStudent.signUpPressed_ends :
    EndsEarly σ ((signUpPressed ops o form).run σ)
      ∨ Registers ops o form Strings.student (studentFields form)
          (fun id => .student (Student.new id)) "studentCreateToHome" σ
          ((signUpPressed ops o form).run σ) :=
  createAccount_ends (fun _ => rfl) (fun _ => rfl) fun _ => rfl

theorem CreateAccountTeacher.signUpPressed_ends :
    EndsEarly σ ((signUpPressed ops o form).run σ)
      ∨ form.isValid ops = true
        ∧ Registers ops o form Strings.teacher (adultFields form)
            (fun id => .teacher (Teacher.new id)) "teacherCreateToHome" σ
            ((signUpPressed ops o form).run σ) :=
  createAdult_ends (fun _ => rfl) fun _ => rfl

theorem CreateAccountParent.signUpPressed_ends :
    EndsEarly σ ((signUpPressed ops o form).run σ)
      ∨ form.isValid ops = true
        ∧ Registers ops o form Strings.parent (adultFields form)
            (fun id => .parent (Parent.new id)) "parentCreateToHome" σ
            ((signUpPressed ops o form).run σ) :=
  createAdult_ends (fun _ => rfl) fun _ => rfl

theorem CreateAccountStudent.signUpPressed_cases :
    Unregistered σ ((signUpPressed ops o form).run σ)
      ∨ Registers ops o form Strings.student (studentFields form)
          (fun id => .student (Student.new id)) "studentCreateToHome" σ
          ((signUpPressed ops o form).run σ) :=
  signUpPressed_ends.imp_left EndsEarly.unregistered

theorem CreateAccountTeacher.signUpPressed_cases :
    Unregistered σ ((signUpPressed ops o form).run σ)
      ∨ form.isValid ops = true
        ∧ Registers ops o form Strings.teacher (adultFields form)
            (fun id => .teacher (Teacher.new id)) "teacherCreateToHome" σ
            ((signUpPressed ops o form).run σ) :=
  signUpPressed_ends.imp_left EndsEarly.unregistered

theorem CreateAccountParent.signUpPressed_cases :
    Unregistered σ ((signUpPressed ops o form).run σ)
      ∨ form.isValid ops = true
        ∧ Registers ops o form Strings.parent (adultFields form)
            (fun id => .parent (Parent.new id)) "parentCreateToHome" σ
            ((signUpPressed ops o form).run σ) :=
  signUpPressed_ends.imp_left EndsEarly.unregistered

end CreateAccount

section ParentCode

variable {ops : TextOps} {floatDescription : Rat → String} {o : Outcome} {code id : String}
  {res : Student} {σ : World}

/-- What is copied from the placeholder: neither the id nor the parent's. -/
def migratedFields (floatDescription : Rat → String) (res : Student) : List (String × String) :=
  [(Strings.bio, res.bio.getD ""), (Strings.email, res.email.getD ""),
   (Strings.classID, res.classID.getD ""), (Strings.firstName, res.firstName.getD ""),
   (Strings.lastName, res.lastName.getD ""), (Strings.gpa, floatDescription (res.gpa.getD 0)),
   (Strings.photoPath, res.photoPath.getD ""), (Strings.pronouns, res.pronouns.getD "")]

theorem ref_migrated :
    (IUser.student (res.migrated id)).ref = documentPath Strings.student ("s_" ++ id) := rfl

/-- The new id starts with an `s`: the object listens to the document it writes. -/
theorem listen_migrated :
    (IUser.student (res.migrated id)).listen = documentPath Strings.student ("s_" ++ id) := by
  have hfirst : TextOps.first ("s_" ++ id) = some "s" := TextOps.first_prefixed (c := 's') rfl id
  simp [IUser.listen, IUser.getType, Student.migrated, IUser.id, IUser.toBaseUser, hfirst]

theorem run_migrate_trap (hp : documentPath Strings.student ("s_" ++ id) = none) :
    (CreateAccountStudent.migrate floatDescription code res id).run σ =
      .error .trap { σ with currentUser := .student (res.migrated id) } := by
  have hbio : (IUser.student (res.migrated id)).setBio (res.bio.getD "") = none := by
    simp [IUser.setBio, DatabaseHelper.saveUserPropertyToDoc, ref_migrated, hp]
  simp only [CreateAccountStudent.migrate, EStateM.run_bind, run_setCurrentUser, hbio,
    run_performAll_none]

theorem setters_migrated :
    [(IUser.student (res.migrated id)).setBio (res.bio.getD ""),
      (IUser.student (res.migrated id)).setEmail (res.email.getD ""),
      (res.migrated id).setClassroom (res.classID.getD ""),
      (IUser.student (res.migrated id)).setFirstName (res.firstName.getD ""),
      (IUser.student (res.migrated id)).setLastName (res.lastName.getD ""),
      (res.migrated id).setGPA floatDescription (res.gpa.getD 0),
      (IUser.student (res.migrated id)).setPhotoPath (res.photoPath.getD ""),
      (IUser.student (res.migrated id)).setPronouns (res.pronouns.getD "")] =
    (migratedFields floatDescription res).map fun f =>
      DatabaseHelper.saveUserPropertyToDoc (.student (res.migrated id)) f.1 f.2 := rfl

/-- The copy holds the grade point average as a text, which the decoder refuses. -/
theorem ofDictionary_merge_migrated (d : Doc) :
    Student.ofDictionary
      (Doc.data (d.merge (strings (migratedFields floatDescription res)))) = none := by
  have hgpa : (d.merge (strings (migratedFields floatDescription res)))[Strings.gpa]? =
      some (.string (floatDescription (res.gpa.getD 0))) := by
    rw [Doc.getElem?_merge]
    rfl
  have hdecode : decodeIfPresent asNumber
      (Doc.data (d.merge (strings (migratedFields floatDescription res)))) Strings.gpa = none := by
    simp [decodeIfPresent, hgpa]
  cases h : Student.ofDictionary
      (Doc.data (d.merge (strings (migratedFields floatDescription res)))) with
  | none => rfl
  | some student =>
      have h := ofDictionary_eq_some h
      rw [Student.decode, hdecode] at h
      cases h

/-- The world once the copy of the placeholder is written. -/
def World.copied (σ : World) (floatDescription : Rat → String) (res : Student) (id : String)
    (p : DocPath) : World :=
  { σ with
    store := σ.store.applyAll (mergeAll p (strings (migratedFields floatDescription res)))
    currentUser := .student (res.migrated id) }

/-- The world after a sign-up with a code whose document is `q`. -/
def World.migrated (σ : World) (floatDescription : Rat → String) (res : Student) (id : String)
    (p q : DocPath) : World :=
  { σ.copied floatDescription res id p with
    store := (σ.copied floatDescription res id p).store.apply (.delete q)
    screens := σ.screens ++ ["studentCreateToHome"] }

theorem get?_migrated_of_ne {p q r : DocPath} (hp : r ≠ p) (hq : r ≠ q) :
    (σ.migrated floatDescription res id p q).store.get? r = σ.store.get? r :=
  (Store.get?_apply_of_ne _ (w := .delete q) hq).trans (Store.get?_mergeAll_of_ne hp)

/-- The copy is there, unless it has been deleted with the placeholder. -/
theorem get?_migrated_self {p q : DocPath} :
    (σ.migrated floatDescription res id p q).store.get? p =
      if p = q then none
      else some (((σ.store.get? p).getD ∅).merge
        (strings (migratedFields floatDescription res))) := by
  have hcopy : (σ.copied floatDescription res id p).store.get? p =
      some (((σ.store.get? p).getD ∅).merge (strings (migratedFields floatDescription res))) :=
    Store.get?_mergeAll
  unfold World.migrated
  rw [Store.get?_apply, hcopy]
  rfl

theorem get?_migrated_deleted {p q : DocPath} :
    (σ.migrated floatDescription res id p q).store.get? q = none :=
  Store.get?_apply_self _ (.delete q)

/-- The copy is written before the placeholder is deleted, and stays if the
code cannot name a document. -/
theorem run_migrate {p : DocPath} (hp : documentPath Strings.student ("s_" ++ id) = some p) :
    (CreateAccountStudent.migrate floatDescription code res id).run σ =
      match documentPath Strings.student code with
      | some q => .ok true (σ.migrated floatDescription res id p q)
      | none => .error .trap (σ.copied floatDescription res id p) := by
  have href : (IUser.student (res.migrated id)).ref = some p := ref_migrated.trans hp
  have hlisten : (IUser.student (res.migrated id)).listen = some p := listen_migrated.trans hp
  have hset := performAll_saveUserPropertyToDoc
    (σ := { σ with currentUser := .student (res.migrated id) }) href
    (migratedFields floatDescription res)
  simp only [CreateAccountStudent.migrate, EStateM.run_bind, run_setCurrentUser]
  rw [setters_migrated, hset]
  simp only [hlisten, run_unwrap_some]
  cases hq : documentPath Strings.student code with
  | none => simp [DatabaseHelper.deleteDocument, hq, World.copied]
  | some q => simp [DatabaseHelper.deleteDocument, hq, World.migrated, World.copied]

/-- A code leads to a student if the lookup of a user with this id does. -/
theorem Student.ofGivenCode_eq_ok {s : Store} :
    Student.ofGivenCode code s = .ok res ↔ UserHelper.getUserByID s code = .ok (.student res) := by
  cases hu : UserHelper.getUserByID s code with
  | error e =>
      have herror : Student.ofGivenCode code s = .error e := by
        rw [Student.ofGivenCode, hu]
        rfl
      simp [herror]
  | ok u =>
      have hcode : Student.ofGivenCode code s =
          unwrap (TextOps.first code) >>= fun _ => unwrap u.asStudent := by
        rw [Student.ofGivenCode, hu]
        rfl
      rw [hcode]
      cases hhead : TextOps.first code with
      | none =>
          -- the empty code is looked up as a `BaseUser`
          have hbase : UserHelper.getUserByID s code = .ok (.base BaseUser.init) := by
            rw [UserHelper.getUserByID, UserHelper.kindOf, hhead]
          obtain rfl := Except.ok.inj (hu.symm.trans hbase)
          show (.error .trap : Answer Student) = .ok res ↔ _
          simp
      | some c =>
          show unwrap u.asStudent = .ok res ↔ _
          cases u <;> simp [IUser.asStudent, unwrap]

/-- A code leads to the first document with this id, if it is a student's. -/
theorem Student.ofGivenCode_eq_ok_iff {s : Store} : Student.ofGivenCode code s = .ok res ↔
    UserHelper.kindOf code = some .student ∧ ∃ m d,
      s.Found Strings.student Strings.id (.string code) m d
        ∧ Student.ofDictionary (Doc.data d) = some res :=
  Student.ofGivenCode_eq_ok.trans UserHelper.getUserByID_eq_student_iff

theorem run_signUpParentCode_halt {e : Halt} (h : Student.ofGivenCode code σ.store = .error e) :
    (CreateAccountStudent.signUpParentCodePressed ops floatDescription o code).run σ =
      .error e σ := by
  rw [CreateAccountStudent.signUpParentCodePressed, EStateM.run_bind, run_ask_error h]

theorem run_signUpParentCode_refused (h : Student.ofGivenCode code σ.store = .ok res)
    (hname : res.firstName = some "") :
    (CreateAccountStudent.signUpParentCodePressed ops floatDescription o code).run σ =
      .ok false { σ with alerts :=
        σ.alerts ++ [("error", "code not found, or student already registered")] } := by
  rw [CreateAccountStudent.signUpParentCodePressed, EStateM.run_bind, run_ask_ok h]
  simp only [hname, if_true, EStateM.run_bind, run_doAlert]
  rfl

theorem run_signUpParentCode_nameless {e : Halt} (h : Student.ofGivenCode code σ.store = .ok res)
    (hname : res.firstName ≠ some "")
    (hid : UserHelper.generateUserName ops o (res.firstName.getD "") (res.lastName.getD "")
      "Student" σ.store = .error e) :
    (CreateAccountStudent.signUpParentCodePressed ops floatDescription o code).run σ =
      .error e { σ with currentUser := .student res } := by
  rw [CreateAccountStudent.signUpParentCodePressed, EStateM.run_bind, run_ask_ok h]
  simp only [hname, if_false, EStateM.run_bind, run_setCurrentUser]
  rw [run_ask_error (σ := { σ with currentUser := .student res }) hid]

theorem run_signUpParentCode (h : Student.ofGivenCode code σ.store = .ok res)
    (hname : res.firstName ≠ some "")
    (hid : UserHelper.generateUserName ops o (res.firstName.getD "") (res.lastName.getD "")
      "Student" σ.store = .ok id) :
    (CreateAccountStudent.signUpParentCodePressed ops floatDescription o code).run σ =
      (CreateAccountStudent.migrate floatDescription code res id).run
        { σ with currentUser := .student res } := by
  rw [CreateAccountStudent.signUpParentCodePressed, EStateM.run_bind, run_ask_ok h]
  simp only [hname, if_false, EStateM.run_bind, run_setCurrentUser]
  rw [run_ask_ok (σ := { σ with currentUser := .student res }) hid]

/-- Everything `signUpParentCodePressed` can do. -/
theorem signUpParentCode_cases :
    Unregistered σ
        ((CreateAccountStudent.signUpParentCodePressed ops floatDescription o code).run σ)
      ∨ ∃ res id p, Student.ofGivenCode code σ.store = .ok res ∧ res.firstName ≠ some ""
          ∧ UserHelper.generateUserName ops o (res.firstName.getD "") (res.lastName.getD "")
              "Student" σ.store = .ok id
          ∧ documentPath Strings.student ("s_" ++ id) = some p
          ∧ (CreateAccountStudent.signUpParentCodePressed ops floatDescription o code).run σ =
              match documentPath Strings.student code with
              | some q => .ok true (σ.migrated floatDescription res id p q)
              | none => .error .trap (σ.copied floatDescription res id p) := by
  cases hcode : Student.ofGivenCode code σ.store with
  | error e =>
      left
      rw [run_signUpParentCode_halt hcode]
      rfl
  | ok res =>
      by_cases hname : res.firstName = some ""
      · left
        rw [run_signUpParentCode_refused hcode hname]
        rfl
      · cases hgen : UserHelper.generateUserName ops o (res.firstName.getD "")
          (res.lastName.getD "") "Student" σ.store with
        | error e =>
            left
            rw [run_signUpParentCode_nameless hcode hname hgen]
            rfl
        | ok id =>
            rw [run_signUpParentCode hcode hname hgen]
            cases hp : documentPath Strings.student ("s_" ++ id) with
            | none =>
                left
                rw [run_migrate_trap hp]
                rfl
            | some p => exact Or.inr ⟨res, id, p, rfl, hname, hgen, hp, run_migrate hp⟩

end ParentCode

end GradeIo
