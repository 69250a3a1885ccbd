/-!
# The shapes of an OpenAPI description

The data model of OpenAPI 3.0 is a table: each named part of a description has a layout, and a layout
says which keys the part has and which shape the tree under each of them must have.  Keys that no
layout mentions are free.
-/

namespace RouteScaffold.OpenApi

/-- A named part of a description. -/
inductive Part where
  | openApi
  | info
  | contact
  | license
  | server
  | serverVariable
  | tag
  | externalDocs
  | paths
  | pathItem
  | operation
  | responses
  | response
  | requestBody
  | mediaType
  | encoding
  | header
  | exampleObject
  | link
  | parameter
  | queryParameter
  | headerParameter
  | pathParameter
  | cookieParameter
  | components
  | securityScheme
  | apiKeyScheme
  | httpScheme
  | oauthScheme
  | openIdScheme
  | oauthFlows
  | implicitFlow
  | passwordFlow
  | clientCredentialsFlow
  | authorizationCodeFlow
  | schema
  | discriminator
  deriving DecidableEq, Repr

/-- What a tree must look like. -/
inductive Shape where
  | anything
  | text
  | flag
  | number
  /-- A natural number. -/
  | count
  /-- One of a few names. -/
  | name (known : List String)
  | list (item : Shape)
  /-- An object with free keys. -/
  | table (value : Shape)
  /-- A reference, or a tree of a shape. -/
  | orReference (target : Shape)
  /-- A truth value, or a tree of a shape, in a choice of the given name. -/
  | flagOr (choice : String) (other : Shape)
  | part (part : Part)
  deriving Repr

/-- Whether a key has to be there, and whether null may stand under it. -/
inductive Presence where
  /-- The key has to be there. -/
  | required
  /-- The key may be missing, and null counts as missing. -/
  | optional
  /-- The key may be missing, but what stands under it has to have the shape. -/
  | defaulted
  deriving DecidableEq, Repr

/-- A key of a part. -/
structure Field where
  key : String
  presence : Presence
  shape : Shape
  deriving Repr

/-- A class of keys. -/
inductive KeyClass where
  /-- Keys that start with a slash. -/
  | path
  /-- Response codes: three digits from `100` on, or a digit and `XX` in any case. -/
  | status
  deriving DecidableEq, Repr

/-- Keys of a part that are checked together. -/
inductive Group where
  | fields (fields : List Field)
  /-- The first key of the object that is one of the given ones. -/
  | firstOf (choice : String) (forms : List (String × Shape))
  /-- All keys of a class. -/
  | keys (keys : KeyClass) (shape : Shape)
  deriving Repr

/-- How a part is laid out. -/
inductive Layout where
  /-- An object whose groups are checked one after the other. -/
  | record (title : String) (groups : List Group)
  /-- An object that is one of several parts, selected by the name under a key. -/
  | tagged (title : String) (tag : String) (parts : List (String × Part))
  deriving Repr

/-! ## Keys -/

namespace Field

def required (shape : Shape) (key : String) : Field := ⟨key, .required, shape⟩

def optional (shape : Shape) (key : String) : Field := ⟨key, .optional, shape⟩

def defaulted (shape : Shape) (key : String) : Field := ⟨key, .defaulted, shape⟩

end Field

open OpenApi.Field OpenApi.Shape

/-- A list of security requirements: the scopes asked of each scheme. -/
def securityRequirements : Shape := list (table (list text))

/-- The keys that say how parameters and headers are written: under `schema` or under `content`. -/
def format : Group :=
  .firstOf "ParameterSchemaOrContent"
    [("schema", orReference (part .schema)), ("content", table (part .mediaType))]

/-- The keys that parameters of all locations have. -/
def parameterData : Group :=
  .fields [required text "name", optional text "description", defaulted flag "required",
    optional flag "deprecated", optional anything "example",
    defaulted (table (orReference (part .exampleObject))) "examples", optional flag "explode"]

/-- A parameter of a location whose style is one of the given names. -/
def parameterAt (location : String) (styles : List String) (more : List Field) : Layout :=
  .record ("struct variant Parameter::" ++ location)
    [.fields (more ++ [defaulted (name styles) "style"]), parameterData, format]

/-! ## The table -/

/-- The layout of a part. -/
def layout : Part → Layout
  | .openApi => .record "struct OpenAPI" [.fields [required text "openapi",
      required (part .info) "info", defaulted (list (part .server)) "servers",
      required (part .paths) "paths", optional (part .components) "components",
      optional securityRequirements "security", defaulted (list (part .tag)) "tags",
      optional (part .externalDocs) "externalDocs"]]
  | .info => .record "struct Info" [.fields [required text "title", optional text "description",
      optional text "termsOfService", optional (part .contact) "contact",
      optional (part .license) "license", required text "version"]]
  | .contact => .record "struct Contact" [.fields [optional text "name", optional text "url",
      optional text "email"]]
  | .license => .record "struct License" [.fields [required text "name", optional text "url"]]
  | .server => .record "struct Server" [.fields [required text "url", optional text "description",
      optional (table (part .serverVariable)) "variables"]]
  | .serverVariable => .record "struct ServerVariable" [.fields [defaulted (list text) "enum",
      required text "default", optional text "description"]]
  | .tag => .record "struct Tag" [.fields [required text "name", optional text "description",
      optional (part .externalDocs) "externalDocs"]]
  | .externalDocs => .record "struct ExternalDocumentation" [.fields [optional text "description",
      required text "url"]]
  | .paths => .record "struct Paths" [.keys .path (orReference (part .pathItem))]
  | .pathItem => .record "struct PathItem" [.fields [optional text "summary",
      optional text "description", optional (part .operation) "get",
      optional (part .operation) "put", optional (part .operation) "post",
      optional (part .operation) "delete", optional (part .operation) "options",
      optional (part .operation) "head", optional (part .operation) "patch",
      optional (part .operation) "trace", defaulted (list (part .server)) "servers",
      defaulted (list (orReference (part .parameter))) "parameters"]]
  | .operation => .record "struct Operation" [.fields [defaulted (list text) "tags",
      optional text "summary", optional text "description",
      optional (part .externalDocs) "externalDocs", optional text "operationId",
      defaulted (list (orReference (part .parameter))) "parameters",
      optional (orReference (part .requestBody)) "requestBody",
      required (part .responses) "responses",
      defaulted (table (table (part .pathItem))) "callbacks", defaulted flag "deprecated",
      optional securityRequirements "security", defaulted (list (part .server)) "servers"]]
  | .responses => .record "struct Responses" [
      .fields [optional (orReference (part .response)) "default"],
      .keys .status (orReference (part .response))]
  | .response => .record "struct Response" [.fields [required text "description",
      defaulted (table (orReference (part .header))) "headers",
      defaulted (table (part .mediaType)) "content",
      defaulted (table (orReference (part .link))) "links"]]
  | .requestBody => .record "struct RequestBody" [.fields [optional text "description",
      defaulted (table (part .mediaType)) "content", defaulted flag "required"]]
  | .mediaType => .record "struct MediaType" [.fields [
      optional (orReference (part .schema)) "schema", optional anything "example",
      defaulted (table (orReference (part .exampleObject))) "examples",
      defaulted (table (part .encoding)) "encoding"]]
  | .encoding => .record "struct Encoding" [.fields [optional text "contentType",
      defaulted (table (orReference (part .header))) "headers",
      optional (name ["form", "spaceDelimited", "pipeDelimited", "deepObject"]) "style",
      defaulted flag "explode", defaulted flag "allowReserved"]]
  | .header => .record "struct Header" [.fields [optional text "description",
      defaulted (name ["simple"]) "style", defaulted flag "required", optional flag "deprecated",
      optional anything "example",
      defaulted (table (orReference (part .exampleObject))) "examples"], format]
  | .exampleObject => .record "struct Example" [.fields [optional text "summary",
      optional text "description", optional anything "value", optional text "externalValue"]]
  | .link => .record "struct Link" [.fields [optional text "description",
      optional anything "requestBody", defaulted (table anything) "parameters",
      optional (part .server) "server"],
      .firstOf "LinkOperation" [("operationRef", text), ("operationId", text)]]
  | .parameter => .tagged "internally tagged enum Parameter" "in" [("query", .queryParameter),
      ("header", .headerParameter), ("path", .pathParameter), ("cookie", .cookieParameter)]
  | .queryParameter => parameterAt "Query"
      ["form", "spaceDelimited", "pipeDelimited", "deepObject"]
      [defaulted flag "allowReserved", optional flag "allowEmptyValue"]
  | .headerParameter => parameterAt "Header" ["simple"] []
  | .pathParameter => parameterAt "Path" ["matrix", "label", "simple"] []
  | .cookieParameter => parameterAt "Cookie" ["form"] []
  | .components => .record "struct Components" [.fields [
      defaulted (table (orReference (part .schema))) "schemas",
      defaulted (table (orReference (part .response))) "responses",
      defaulted (table (orReference (part .parameter))) "parameters",
      defaulted (table (orReference (part .exampleObject))) "examples",
      defaulted (table (orReference (part .requestBody))) "requestBodies",
      defaulted (table (orReference (part .header))) "headers",
      defaulted (table (orReference (part .securityScheme))) "securitySchemes",
      defaulted (table (orReference (part .link))) "links",
      defaulted (table (orReference (table (part .pathItem)))) "callbacks"]]
  | .securityScheme => .tagged "internally tagged enum SecurityScheme" "type" [
      ("apiKey", .apiKeyScheme), ("http", .httpScheme), ("oauth2", .oauthScheme),
      ("openIdConnect", .openIdScheme)]
  | .apiKeyScheme => .record "struct variant SecurityScheme::APIKey" [.fields [
      required (name ["query", "header", "cookie"]) "in", required text "name",
      optional text "description"]]
  | .httpScheme => .record "struct variant SecurityScheme::HTTP" [.fields [required text "scheme",
      optional text "bearerFormat", optional text "description"]]
  | .oauthScheme => .record "struct variant SecurityScheme::OAuth2" [.fields [
      required (part .oauthFlows) "flows", optional text "description"]]
  | .openIdScheme => .record "struct variant SecurityScheme::OpenIDConnect" [.fields [
      required text "openIdConnectUrl", optional text "description"]]
  | .oauthFlows => .record "struct OAuth2Flows" [.fields [
      optional (part .implicitFlow) "implicit", optional (part .passwordFlow) "password",
      optional (part .clientCredentialsFlow) "clientCredentials",
      optional (part .authorizationCodeFlow) "authorizationCode"]]
  | .implicitFlow => .record "struct ImplicitOAuth2Flow" [.fields [
      required text "authorizationUrl", optional text "refreshUrl",
      required (table text) "scopes"]]
  | .passwordFlow => .record "struct PasswordOAuth2Flow" [.fields [optional text "refreshUrl",
      required text "tokenUrl", required (table text) "scopes"]]
  | .clientCredentialsFlow => .record "struct ClientCredentialsOAuth2Flow" [.fields [
      optional text "refreshUrl", required text "tokenUrl", required (table text) "scopes"]]
  | .authorizationCodeFlow => .record "struct AuthorizationCodeOAuth2Flow" [.fields [
      required text "authorizationUrl", required text "tokenUrl", optional text "refreshUrl",
      required (table text) "scopes"]]
  | .schema => .record "struct Schema" [
      .fields [defaulted flag "nullable", defaulted flag "readOnly", defaulted flag "writeOnly",
        defaulted flag "deprecated", optional (part .externalDocs) "externalDocs",
        optional anything "example", optional text "title", optional text "description",
        optional (part .discriminator) "discriminator", optional anything "default"],
      .fields [optional text "type", optional text "pattern", optional number "multipleOf",
        optional flag "exclusiveMinimum", optional flag "exclusiveMaximum",
        optional number "minimum", optional number "maximum",
        optional (table (orReference (part .schema))) "properties",
        optional (list text) "required",
        optional (flagOr "AdditionalProperties" (orReference (part .schema)))
          "additionalProperties",
        optional count "minProperties", optional count "maxProperties",
        optional (orReference (part .schema)) "items", optional count "minItems",
        optional count "maxItems", optional flag "uniqueItems", optional (list anything) "enum",
        optional text "format", optional count "minLength", optional count "maxLength",
        optional (list (orReference (part .schema))) "oneOf",
        optional (list (orReference (part .schema))) "allOf",
        optional (list (orReference (part .schema))) "anyOf",
        optional (orReference (part .schema)) "not"]]
  | .discriminator => .record "struct Discriminator" [.fields [required text "propertyName",
      defaulted (table text) "mapping"]]

end RouteScaffold.OpenApi
