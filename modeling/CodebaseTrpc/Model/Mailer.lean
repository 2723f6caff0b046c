import CodebaseTrpc.Model.World

/-! `utils/email.ts`: handing mails to the mail service. -/
namespace CodebaseTrpc

def sendEmail (mail : Mail) : Promise Unit :=
  .act (fun w => { w with outbox := w.outbox ++ [(mail, w.env.mail)] }) fun w =>
    match w.env.mail with
    | .accepted => .pure ()
    | .errorStatus message => .throw (.error ("Resend API error: " ++ message))
    | .networkFailure message => .throw (.error message)

/-- The three senders: any failure becomes one `CustomError`. -/
def sendOr (mail : Mail) (message : String) : Promise Unit :=
  (sendEmail mail).tryCatch fun _ => .throw (.custom message .internalServerError)

def sendVerificationEmail (recipient fullName verificationToken : String) : Promise Unit :=
  sendOr (.verification recipient fullName verificationToken) "Failed to send verification email"

def sendPasswordResetEmail (recipient fullName resetToken : String) : Promise Unit :=
  sendOr (.passwordReset recipient fullName resetToken) "Failed to send password reset email"

def sendEmailChangeCode (recipient fullName code : String) : Promise Unit :=
  sendOr (.emailChangeCode recipient fullName code) "Failed to send verification code"

/-- `Math.floor(MIN + Math.random() * (MAX - MIN + 1)).toString()` -/
def generateSixDigitsVerificationCode : Promise String :=
  .act id fun w => .pure (toString (verificationCodeMin + w.env.random.val))

end CodebaseTrpc
