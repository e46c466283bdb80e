import SmirklyAuth.Api.EmailHandlers
import SmirklyAuth.Infra.Http.RequestMetaExtractor

/-!
# `SmirklyAuth.Api.Http`: bodies, tokens and cookies

What the handlers of `api/v0` read from a request and write to a response, below the HTTP
server of the framework:

* JSON values, `utils::GetString` and the bodies `SignInRequest` and `SignUpRequest`
  (`api/v0/utils/json_request.hpp`, `api/v0/dto`, `infra/mapping/dto_mappers.cpp`);
* the bearer token (`api/v0/auth/bearer_token.cpp`);
* the refresh cookie and the replies.

The framework hands an empty body over as JSON null, and it reads null like an object without
members. Every other value that is no object makes `HasMember` and `operator[]` throw.
-/

set_option autoImplicit false

namespace SmirklyAuth

/-! ### JSON -/

/-- `userver::formats::json::Value`. The parser rejects an object with two equal keys. -/
inductive Json where
  | null
  | bool (value : Bool)
  | number (text : Str)
  | string (value : Str)
  | array (items : List Json)
  | object (members : List (Str × Json))

namespace Json

/-- The exception for a member that is missing or has another type. -/
def unexpectedType : Error := .runtimeError "unexpected JSON type"

/-- `operator[](name)`: `none` is the missing value. -/
def member (body : Json) (name : Str) : Except Error (Option Json) :=
  match body with
  | .object members => .ok (members.lookup name)
  | .null => .ok none
  | _ => .error unexpectedType

/-- `HasMember`. -/
def hasMember (body : Json) (name : Str) : Except Error Bool :=
  (body.member name).map Option.isSome

/-- `body[name].As<std::string>()`. -/
def asString (body : Json) (name : Str) : Except Error Str :=
  match body.member name with
  | .ok (some (.string value)) => .ok value
  | .ok _ => .error unexpectedType
  | .error x => .error x

/-- `body[name].As<std::optional<std::string>>()`. -/
def asOptionalString (body : Json) (name : Str) : Except Error (Option Str) :=
  match body.member name with
  | .ok none | .ok (some .null) => .ok none
  | .ok (some (.string value)) => .ok (some value)
  | .ok _ => .error unexpectedType
  | .error x => .error x

/-- A string, or null for a value that is not there. -/
def orNull : Option Str → Json
  | some value => .string value
  | none => .null

end Json

/-- `utils::GetString`. The call of `HasMember` is outside of its `try` block. -/
def getString (body : Json) (name : Str) : Except Error (Option Str) :=
  match body.hasMember name with
  | .error x => .error x
  | .ok false => .ok none
  | .ok true => .ok (body.asString name).toOption

/-! ### `api/v0/dto` -/

/-- `SignInRequest`. -/
structure SignInRequest where
  username : Option Str
  email : Option Str
  phone : Option Str
  password : Str

/-- `Parse(value, To<SignInRequest>)`. -/
def SignInRequest.parse (value : Json) : Except Error SignInRequest := do
  let username ← value.asOptionalString "username"
  let email ← value.asOptionalString "email"
  let phone ← value.asOptionalString "phone"
  let password ← value.asString "password"
  return { username, email, phone, password }

/-- `infra::mapping::ToDomain(SignInRequest)`. -/
def SignInRequest.toDomain (dto : SignInRequest) : SignInCommand where
  username := dto.username
  email := dto.email
  phone := dto.phone
  password := dto.password

/-- `SignUpRequest`. -/
structure SignUpRequest where
  username : Str
  password : Str
  phone : Option Str
  email : Option Str

/-- `if (body.HasMember(name)) value = body[name].As<std::string>();`. -/
def optionalMember (body : Json) (name : Str) : Except Error (Option Str) :=
  match body.hasMember name with
  | .error x => .error x
  | .ok false => .ok none
  | .ok true => (body.asString name).map some

/-- `SignUpRequest::FromJson`. The `ClientError`s carry their external body. -/
def SignUpRequest.fromJson (body : Json) : Except Error SignUpRequest := do
  let phone ← optionalMember body "phone"
  let email ← optionalMember body "email"
  let hasUsername ← body.hasMember "username"
  failIf (!hasUsername) (.runtimeError "'username' is required")
  let hasPassword ← body.hasMember "password"
  failIf (!hasPassword) (.runtimeError "'password' is required")
  let username ← body.asString "username"
  let password ← body.asString "password"
  failIf (phone.isNone && email.isNone)
    (.runtimeError "either 'phone' or 'email' must be provided")
  return { username, password, phone, email }

/-- `infra::mapping::ToDomain(SignUpRequest)`. -/
def SignUpRequest.toDomain (dto : SignUpRequest) : SignUpCommand where
  username := dto.username
  password := dto.password
  phone := dto.phone
  email := dto.email

/-- `dto::UserResponse`. -/
structure UserResponse where
  id : Uuid
  username : Str
  phone : Option Str
  email : Option Str
  isEmailVerified : Bool
  isPhoneVerified : Bool

/-- `infra::mapping::ToUserDto`. -/
def toUserDto (user : User) : UserResponse where
  id := user.id
  username := user.username
  phone := user.phone
  email := user.email
  isEmailVerified := user.isEmailVerified
  isPhoneVerified := user.isPhoneVerified

/-- A member that is left out when there is no value. -/
def jsonMember (name : Str) : Option Str → List (Str × Json)
  | some value => [(name, .string value)]
  | none => []

/-- `UserResponse::ToJson`. -/
def UserResponse.toJson (dto : UserResponse) : Json :=
  .object ([((lit "id"), .string dto.id.text), (lit "username", .string dto.username)] ++
    jsonMember "phone" dto.phone ++ jsonMember "email" dto.email ++
    [(lit "is_email_verified", .bool dto.isEmailVerified),
      (lit "is_phone_verified", .bool dto.isPhoneVerified)])

/-! ### Requests and replies -/

/-- What the handlers read of an `HttpRequest`. A header or cookie that is not there is the
empty string. -/
structure ApiRequest extends HttpRequest where
  authorization : Str := []
  /-- `GetCookie("refresh_token")`. -/
  refreshCookie : Str := []
  /-- `GetPathArg("session_id")`. -/
  sessionIdArg : Str := []
  /-- The parsed body. A body that is no JSON is refused before the handler runs. -/
  body : Json := .null

/-- `ExtractBearerToken`, on the value of the header `Authorization`. -/
def extractBearerToken (authorization : Str) : Option Str :=
  let kPrefix : Str := "Bearer "
  if authorization.length ≤ kPrefix.length then none
  else if authorization.take kPrefix.length ≠ kPrefix then none
  else some (authorization.drop kPrefix.length)

/-- `userver::server::http::Cookie`. -/
structure Cookie where
  name : Str
  value : Str
  httpOnly : Bool
  secure : Bool
  path : Str
  sameSite : Str
  maxAge : Seconds
  deriving DecidableEq

/-- The cookie that `sign-in` and `refresh` set. -/
def refreshTokenCookie (value : Str) (maxAge : Seconds) : Cookie where
  name := "refresh_token"
  value := value
  httpOnly := true
  secure := true
  path := "/auth/v0/refresh"
  sameSite := "Strict"
  maxAge := maxAge

/-- `ClearRefreshCookie`. -/
def clearRefreshCookie : Cookie := refreshTokenCookie [] 0

/-- A response: its status, its JSON body, the cookie it sets and its own headers. -/
structure Reply where
  status : HttpStatus
  body : Json := .null
  cookie : Option Cookie := none
  headers : List (Str × Str) := []

/-- The reply with a code and a message in its body, or with an empty body. -/
def HttpResponse.reply (response : HttpResponse) : Reply where
  status := response.status
  body := match response.error with
    | some (code, message) =>
        .object [(lit "code", .string code), (lit "message", .string message)]
    | none => .null

/-- What `AuthErrorResponse` makes of an exception, with the cookie that the handler has set
before. An exception that is not mapped leaves the handler. -/
def errorResult (error : Error) (context : AuthErrorContext := .generic)
    (cookie : Option Cookie := none) : Except Error Reply :=
  match tryMapAuthError error context with
  | some mapped => .ok { mapped.response.reply with cookie }
  | none => .error error

/-- The reply to a request without a bearer token. -/
def missingAccessTokenReply : Reply :=
  HttpResponse.reply
    { status := .unauthorized
      error := some ("auth.missing_access_token", "missing access token") }

end SmirklyAuth
